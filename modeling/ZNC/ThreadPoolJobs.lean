/-
The jobs of the thread pool of `src/Threads.cpp`: what happens to each of them, whatever the threads do.

A job is in one place at a time: in the queue, in a worker, in the pipe, or in a set of `cancelJobs`. Its place says what has happened
to it, and every step moves one job at a time.

Results:
- `Jobs.take`, `Jobs.done`, `Jobs.finish` and others: the moves;
- `step_inv`: a step keeps the jobs in their places, and asserts nothing that is false;
- `pool_run`: the law of the pool holds in every state of every interleaving.
-/
import ZNC.Lib.Rosters
import ZNC.Lib.Runs
import ZNC.ThreadPool

namespace ZNC.ThreadPool

open List Function

/-! ## Places -/

/-- where a job is: not in the pool, in the queue, in a worker, there and cancelled, in the pipe, there and cancelled, finished and
waited for, or to be deleted -/
inductive Place where
  | gone
  | queued
  | running
  | cancelling
  | piped
  | condemned
  | awaited
  | doomed
deriving DecidableEq

namespace Place

def Runs (p : Place) : Prop := p = .running ∨ p = .cancelling
def Piped (p : Place) : Prop := p = .piped ∨ p = .condemned
def Waits (p : Place) : Prop := p = .cancelling ∨ p = .awaited

instance : DecidablePred Runs := fun _ => inferInstanceAs (Decidable (_ ∨ _))
instance : DecidablePred Piped := fun _ => inferInstanceAs (Decidable (_ ∨ _))
instance : DecidablePred Waits := fun _ => inferInstanceAs (Decidable (_ ∨ _))

end Place

/-- a job that is not in the pool: it never was, or it is deleted; its `runMain` was called if it finished and was not cancelled -/
structure Closed (c : CJob) : Prop where
  live : c.bLive = false
  once : c.runThread ≤ 1
  main : c.runMain = if c.bFinished ∧ ¬ c.bCancelled then 1 else 0
  deleted : c.deleted = if c.bAdded then 1 else 0

/-- the record of a job at its place -/
def Place.Fits : Place → CJob → Prop
  | .gone, c => Closed c
  | .queued, c => c = CThreadPool.newJob
  | .running, c => c = ⟨.RUNNING, true, true, 1, false, false, 0, 0⟩
  | .cancelling, c => c = ⟨.CANCELLED, true, true, 1, false, true, 0, 0⟩
  | .piped, c => c = ⟨.DONE, true, true, 1, true, false, 0, 0⟩
  | .condemned, c => c = ⟨.CANCELLED, true, true, 1, true, true, 0, 0⟩
  | .awaited, c => c = ⟨.DONE, true, true, 1, true, true, 0, 0⟩
  | .doomed, c => c = ⟨.CANCELLED, true, true, 0, false, true, 0, 0⟩ ∨ c = ⟨.CANCELLED, true, true, 1, true, true, 0, 0⟩

namespace CThreadPool

variable {s s' : CThreadPool} {place : ℕ → Place} {job : ℕ}

/-- every job is at its place, with the record of the place -/
structure Jobs (s : CThreadPool) (place : ℕ → Place) : Prop where
  fits : ∀ job, (place job).Fits (s.job job)
  queue : Roster place (· = .queued) s.m_jobs
  running : Roster place Place.Runs (s.threads.filterMap Thread.job?)
  pipe : Roster place Place.Piped s.m_iJobPipe
  wait : Roster place Place.Waits s.wait
  finished : Roster place (· = .condemned) s.finished
  deleteLater : Roster place (· = .doomed) s.deleteLater

theorem fits_update {job : ℕ → CJob} (h : ∀ j, (place j).Fits (job j)) {j : ℕ} {p : Place} {c : CJob}
    (hp : p.Fits c) (k : ℕ) :
    (update place j p k).Fits (update job j c k) := by
  by_cases hk : k = j
  · rw [hk, update_self, update_self]
    exact hp
  · rw [update_of_ne hk, update_of_ne hk]
    exact h k

theorem Jobs.live_iff (h : Jobs s place) (job : ℕ) : (s.job job).bLive = true ↔ place job ≠ .gone := by
  have hfits := h.fits job
  cases hplace : place job with
  | gone =>
    rw [hplace] at hfits
    simp [hfits.live]
  | doomed =>
    rw [hplace] at hfits
    rcases hfits with heq | heq <;> simp [heq]
  | _ =>
    rw [hplace] at hfits
    have heq : s.job job = _ := hfits
    simp [heq, newJob]

/-! ## The moves -/

theorem Jobs.add (h : Jobs s place) (hgone : place job = .gone) {threads : List Thread} (m_num_threads : ℕ)
    (hthreads : threads.filterMap Thread.job? = s.threads.filterMap Thread.job?) :
    Jobs { s with
      job := update s.job job newJob
      m_jobs := s.m_jobs ++ [job]
      threads := threads
      m_num_threads := m_num_threads } (update place job .queued) := by
  constructor
  · exact fits_update h.fits rfl
  · exact h.queue.enter (by simp [hgone]) rfl (perm_append_singleton _ _)
  · exact hthreads ▸ h.running.keep (by simp [hgone, Place.Runs])
  · exact h.pipe.keep (by simp [hgone, Place.Piped])
  · exact h.wait.keep (by simp [hgone, Place.Waits])
  · exact h.finished.keep (by simp [hgone])
  · exact h.deleteLater.keep (by simp [hgone])

variable {pre post : List Thread} {t : Thread}

theorem perm_job (pre post : List Thread) (job : ℕ) :
    ((pre ++ .running job :: post).filterMap Thread.job?).Perm (job :: (pre ++ post).filterMap Thread.job?) := by
  rw [filterMap_append, filterMap_append, filterMap_cons_some (show Thread.job? (.running job) = some job from rfl)]
  exact perm_middle

theorem filterMap_skip (pre post : List Thread) (ht : t.job? = none) :
    (pre ++ t :: post).filterMap Thread.job? = (pre ++ post).filterMap Thread.job? := by
  rw [filterMap_append, filterMap_append, filterMap_cons_none ht]

theorem Jobs.rethread (h : Jobs s place) {threads : List Thread}
    (hthreads : threads.filterMap Thread.job? = s.threads.filterMap Thread.job?) (m_num_threads m_num_idle : ℕ) :
    Jobs { s with threads := threads, m_num_threads := m_num_threads, m_num_idle := m_num_idle } place :=
  ⟨h.fits, h.queue, hthreads ▸ h.running, h.pipe, h.wait, h.finished, h.deleteLater⟩

/-- a worker takes the first job -/
theorem Jobs.take (h : Jobs s place) {m_jobs : List ℕ} (hjobs : s.m_jobs = job :: m_jobs)
    (hthreads : s.threads.filterMap Thread.job? = (pre ++ post).filterMap Thread.job?) :
    Jobs (s.taken pre post job m_jobs) (update place job .running) := by
  have hplace : place job = .queued := (h.queue.mem job).1 (by rw [hjobs]; exact mem_cons_self)
  have hrecord : s.job job = newJob := by simpa [hplace, Place.Fits] using h.fits job
  constructor
  · refine fits_update h.fits ?_
    rw [hrecord]
    rfl
  · exact h.queue.leave (by decide) (by rw [hjobs]; exact List.Perm.refl _)
  · have hrunning := h.running
    rw [hthreads] at hrunning
    exact hrunning.enter (by simp [hplace, Place.Runs]) (.inl rfl) (perm_job pre post job)
  · exact h.pipe.keep (by simp [hplace, Place.Piped])
  · exact h.wait.keep (by simp [hplace, Place.Waits])
  · exact h.finished.keep (by simp [hplace])
  · exact h.deleteLater.keep (by simp [hplace])

/-- **What a worker does at the head of its loop** moves at most one job. -/
theorem Jobs.loopHead (h : Jobs s place)
    (hthreads : s.threads.filterMap Thread.job? = (pre ++ post).filterMap Thread.job?)
    (hdoes : s' = s.waiting pre post ∨ (∃ job m_jobs, s.m_jobs = job :: m_jobs ∧ s' = s.taken pre post job m_jobs) ∨
      s' = s.ended pre post) : ∃ place', Jobs s' place' := by
  rcases hdoes with rfl | ⟨job, m_jobs, hjobs, rfl⟩ | rfl
  · exact ⟨place, h.rethread ((filterMap_skip pre post rfl).trans hthreads.symm) _ _⟩
  · exact ⟨_, h.take hjobs hthreads⟩
  · exact ⟨place, h.rethread hthreads.symm _ _⟩

/-- a worker is done with its job: the job goes into the pipe, or to the one who waits for it -/
theorem Jobs.done (h : Jobs s place) (hthreads : s.threads = pre ++ .running job :: post) :
    ∃ s' place', s.jobDone job = some s' ∧ Jobs { s' with threads := pre ++ .starting :: post } place' ∧
      s'.m_jobs = s.m_jobs ∧ s'.threads = s.threads ∧ s'.m_num_threads = s.m_num_threads ∧
      s'.m_num_idle = s.m_num_idle ∧
      s'.phase = s.phase ∧ s'.wait = s.wait ∧ s'.finished = s.finished ∧ s'.deleteLater = s.deleteLater := by
  have hmem : job ∈ s.threads.filterMap Thread.job? :=
    mem_filterMap.2 ⟨.running job, by rw [hthreads]; simp, rfl⟩
  have hperm : (s.threads.filterMap Thread.job?).Perm (job :: (pre ++ .starting :: post).filterMap Thread.job?) := by
    rw [hthreads, filterMap_skip pre post (show Thread.job? .starting = none from rfl)]
    exact perm_job pre post job
  have hfits := h.fits job
  have hlive : (s.job job).bLive = true := by
    rw [h.live_iff]
    intro hgone
    rcases (h.running.mem job).1 hmem with hplace | hplace <;> rw [hgone] at hplace <;> cases hplace
  rcases (h.running.mem job).1 hmem with hplace | hplace
  · rw [hplace] at hfits
    have hrecord : s.job job = ⟨.RUNNING, true, true, 1, false, false, 0, 0⟩ := hfits
    refine ⟨{ s.setJob job ⟨.DONE, true, true, 1, true, false, 0, 0⟩ with m_iJobPipe := s.m_iJobPipe ++ [job] },
      update place job .piped, ?_, ?_, rfl, rfl, rfl, rfl, rfl, rfl, rfl, rfl⟩
    · rw [jobDone, touch_of_live hlive, hrecord]
      rfl
    · constructor
      · exact fits_update h.fits rfl
      · exact h.queue.keep (by simp [hplace])
      · exact h.running.leave (by decide) hperm
      · exact h.pipe.enter (by simp [hplace, Place.Piped]) (.inl rfl) (perm_append_singleton _ _)
      · exact h.wait.keep (by simp [hplace, Place.Waits])
      · exact h.finished.keep (by simp [hplace])
      · exact h.deleteLater.keep (by simp [hplace])
  · rw [hplace] at hfits
    have hrecord : s.job job = ⟨.CANCELLED, true, true, 1, false, true, 0, 0⟩ := hfits
    refine ⟨s.setJob job ⟨.DONE, true, true, 1, true, true, 0, 0⟩, update place job .awaited,
      ?_, ?_, rfl, rfl, rfl, rfl, rfl, rfl, rfl, rfl⟩
    · rw [jobDone, touch_of_live hlive, hrecord]
      rfl
    · constructor
      · exact fits_update h.fits rfl
      · exact h.queue.keep (by simp [hplace])
      · exact h.running.leave (by decide) hperm
      · exact h.pipe.keep (by simp [hplace, Place.Piped])
      · exact h.wait.keep (by simp [hplace, Place.Waits])
      · exact h.finished.keep (by simp [hplace])
      · exact h.deleteLater.keep (by simp [hplace])

/-- the first job of the pipe is finished -/
theorem Jobs.finish (h : Jobs s place) {m_iJobPipe : List ℕ} (hpipe : s.m_iJobPipe = job :: m_iJobPipe)
    (hfree : job ∉ s.finished) : ∃ s', { s with m_iJobPipe := m_iJobPipe }.finishJob job = some s' ∧
      Jobs s' (update place job .gone) ∧ s'.m_jobs = s.m_jobs ∧ s'.threads = s.threads ∧
      s'.m_num_threads = s.m_num_threads ∧ s'.m_num_idle = s.m_num_idle ∧ s'.phase = s.phase ∧ s'.wait = s.wait ∧
      s'.finished = s.finished ∧ s'.deleteLater = s.deleteLater := by
  have hplace : place job = .piped := by
    rcases (h.pipe.mem job).1 (by rw [hpipe]; exact mem_cons_self) with hplace | hplace
    · exact hplace
    · exact absurd ((h.finished.mem job).2 hplace) hfree
  have hfits := h.fits job
  rw [hplace] at hfits
  have hrecord : s.job job = ⟨.DONE, true, true, 1, true, false, 0, 0⟩ := hfits
  refine ⟨{ s with m_iJobPipe := m_iJobPipe,
                   job := update s.job job ⟨.DONE, true, false, 1, true, false, 1, 1⟩ },
    ?_, ?_, rfl, rfl, rfl, rfl, rfl, rfl, rfl, rfl⟩
  · simp [finishJob, deleteJob, touch, setJob, hrecord]
  · constructor
    · exact fits_update h.fits ⟨rfl, le_rfl, rfl, rfl⟩
    · exact h.queue.keep (by simp [hplace])
    · exact h.running.keep (by simp [hplace, Place.Runs])
    · exact h.pipe.leave (by decide) (by rw [hpipe])
    · exact h.wait.keep (by simp [hplace, Place.Waits])
    · exact h.finished.keep (by simp [hplace])
    · exact h.deleteLater.keep (by simp [hplace])

theorem Jobs.condemn (h : Jobs s place) {m_iJobPipe : List ℕ} (hpipe : s.m_iJobPipe = job :: m_iJobPipe)
    (hfinished : job ∈ s.finished) : (s.job job).m_eState = .CANCELLED ∧
      ∃ s', { s with m_iJobPipe := m_iJobPipe, finished := s.finished.erase job }.deleteJob job = some s' ∧
        Jobs s' (update place job .gone) ∧ s'.m_jobs = s.m_jobs ∧ s'.threads = s.threads ∧
        s'.m_num_threads = s.m_num_threads ∧ s'.m_num_idle = s.m_num_idle ∧ s'.phase = s.phase ∧ s'.wait = s.wait := by
  have hplace : place job = .condemned := (h.finished.mem job).1 hfinished
  have hfits := h.fits job
  rw [hplace] at hfits
  have hrecord : s.job job = ⟨.CANCELLED, true, true, 1, true, true, 0, 0⟩ := hfits
  refine ⟨by rw [hrecord], { s with
      m_iJobPipe := m_iJobPipe
      finished := s.finished.erase job
      job := update s.job job ⟨.CANCELLED, true, false, 1, true, true, 0, 1⟩ },
    ?_, ?_, rfl, rfl, rfl, rfl, rfl, rfl⟩
  · rw [deleteJob, touch, hrecord, if_pos rfl]
    rfl
  · constructor
    · exact fits_update h.fits ⟨rfl, le_rfl, rfl, rfl⟩
    · exact h.queue.keep (by simp [hplace])
    · exact h.running.keep (by simp [hplace, Place.Runs])
    · exact h.pipe.leave (by decide) (by rw [hpipe])
    · exact h.wait.keep (by simp [hplace, Place.Waits])
    · exact h.finished.leave (by decide) (perm_cons_erase hfinished)
    · exact h.deleteLater.keep (by simp [hplace])

theorem called_cancelOne {jobs : List ℕ} (hjob : job ∉ jobs) (s : CThreadPool) :
    (s.called jobs).cancelOne job = (s.cancelOne job).map (·.called jobs) := by
  have hrecord : (s.called jobs).job job = s.job job := if_neg hjob
  have hset : ∀ c, (s.called jobs).setJob job c = (s.setJob job c).called jobs := by
    intro c
    simp only [called, setJob]
    congr 1
    funext k
    by_cases hk : k = job
    · rw [hk, update_self, update_self, if_neg hjob]
    · rw [update_of_ne hk, update_of_ne hk]
  rw [cancelOne, cancelOne, touch, touch, hrecord]
  by_cases hlive : (s.job job).bLive = true
  · rw [if_pos hlive, if_pos hlive, hset, Option.bind_some, Option.bind_some]
    cases (s.job job).m_eState with
    | READY =>
      dsimp only
      by_cases hmem : job ∈ s.m_jobs
      · rw [if_pos (show job ∈ ((s.setJob job _).called jobs).m_jobs from hmem),
          if_pos (show job ∈ (s.setJob job _).m_jobs from hmem)]
        rfl
      · rw [if_neg (show job ∉ ((s.setJob job _).called jobs).m_jobs from hmem),
          if_neg (show job ∉ (s.setJob job _).m_jobs from hmem)]
        rfl
    | _ => rfl
  · rw [if_neg hlive, if_neg hlive]
    rfl

/-- the first loop may mark each job when it comes to it -/
theorem foldlM_called {jobs : List ℕ} (hnodup : jobs.Nodup) (s : CThreadPool) :
    jobs.foldlM cancelOne (s.called jobs) = jobs.foldlM (fun s job => (s.called [job]).cancelOne job) s := by
  induction jobs generalizing s with
  | nil => simp [called]
  | cons job jobs ih =>
    obtain ⟨hjob, hnodup⟩ := nodup_cons.1 hnodup
    have hcalled : s.called (job :: jobs) = (s.called [job]).called jobs := by
      simp only [called]
      congr 1
      funext k
      by_cases hk : k ∈ jobs <;> by_cases hkj : k = job <;> simp [hk, hkj]
    rw [foldlM_cons, foldlM_cons, hcalled, called_cancelOne hjob]
    cases (s.called [job]).cancelOne job with
    | none => rfl
    | some s' => exact ih hnodup s'

theorem called_self (s : CThreadPool) (job : ℕ) :
    (s.called [job]).job job = { s.job job with bCancelled := true } := if_pos mem_cons_self

theorem touch_called (hlive : (s.job job).bLive = true) (f : CJob → CJob) :
    (s.called [job]).touch job f = some (s.setJob job (f { s.job job with bCancelled := true })) := by
  rw [touch, called_self, if_pos hlive]
  simp only [called, setJob]
  congr 2
  funext k
  by_cases hk : k = job
  · rw [hk, update_self, update_self]
  · rw [update_of_ne hk, update_of_ne hk, if_neg (by simpa using hk)]

theorem Jobs.cancel (h : Jobs s place) (hplace : place job = .queued ∨ place job = .running ∨ place job = .piped) :
    ∃ s' p, (s.called [job]).cancelOne job = some s' ∧ Jobs s' (update place job p) ∧ s'.m_jobs.length ≤ s.m_jobs.length ∧
      s'.threads = s.threads ∧ s'.m_num_threads = s.m_num_threads ∧ s'.m_num_idle = s.m_num_idle ∧
      ∀ k, k ≠ job → s'.job k = s.job k := by
  have hfits := h.fits job
  have hlive : (s.job job).bLive = true := by
    rw [h.live_iff]
    rcases hplace with hplace | hplace | hplace <;> simp [hplace]
  rcases hplace with hplace | hplace | hplace
  · rw [hplace] at hfits
    have hrecord : s.job job = newJob := hfits
    have hmem : job ∈ s.m_jobs := (h.queue.mem job).2 hplace
    refine ⟨{ s.setJob job ⟨.CANCELLED, true, true, 0, false, true, 0, 0⟩ with
        m_jobs := s.m_jobs.erase job, deleteLater := s.deleteLater ++ [job] },
      .doomed, ?_, ?_, ?_, rfl, rfl, rfl, fun k hk => update_of_ne hk _ _⟩
    · rw [cancelOne, touch_called hlive, called_self, hrecord]
      exact if_pos hmem
    · constructor
      · exact fits_update h.fits (.inl rfl)
      · exact h.queue.leave (by decide) (perm_cons_erase hmem)
      · exact h.running.keep (by simp [hplace, Place.Runs])
      · exact h.pipe.keep (by simp [hplace, Place.Piped])
      · exact h.wait.keep (by simp [hplace, Place.Waits])
      · exact h.finished.keep (by simp [hplace])
      · exact h.deleteLater.enter (by simp [hplace]) rfl (perm_append_singleton _ _)
    · exact length_erase_le
  · rw [hplace] at hfits
    have hrecord : s.job job = ⟨.RUNNING, true, true, 1, false, false, 0, 0⟩ := hfits
    refine ⟨{ s.setJob job ⟨.CANCELLED, true, true, 1, false, true, 0, 0⟩ with wait := s.wait ++ [job] }, .cancelling,
      ?_, ?_, le_rfl, rfl, rfl, rfl, fun k hk => update_of_ne hk _ _⟩
    · rw [cancelOne, touch_called hlive, called_self, hrecord]
      rfl
    · constructor
      · exact fits_update h.fits rfl
      · exact h.queue.keep (by simp [hplace])
      · exact h.running.keep (by simp [hplace, Place.Runs])
      · exact h.pipe.keep (by simp [hplace, Place.Piped])
      · exact h.wait.enter (by simp [hplace, Place.Waits]) (.inl rfl) (perm_append_singleton _ _)
      · exact h.finished.keep (by simp [hplace])
      · exact h.deleteLater.keep (by simp [hplace])
  · rw [hplace] at hfits
    have hrecord : s.job job = ⟨.DONE, true, true, 1, true, false, 0, 0⟩ := hfits
    refine ⟨{ s.setJob job ⟨.CANCELLED, true, true, 1, true, true, 0, 0⟩ with finished := s.finished ++ [job] },
      .condemned, ?_, ?_, le_rfl, rfl, rfl, rfl, fun k hk => update_of_ne hk _ _⟩
    · rw [cancelOne, touch_called hlive, called_self, hrecord]
      rfl
    · constructor
      · exact fits_update h.fits rfl
      · exact h.queue.keep (by simp [hplace])
      · exact h.running.keep (by simp [hplace, Place.Runs])
      · exact h.pipe.keep (by simp [hplace, Place.Piped])
      · exact h.wait.keep (by simp [hplace, Place.Waits])
      · exact h.finished.enter (by simp [hplace]) rfl (perm_append_singleton _ _)
      · exact h.deleteLater.keep (by simp [hplace])

theorem Jobs.collect (h : Jobs s place) (hmem : job ∈ s.wait) :
    ∃ s' p, s.collectOne job = some s' ∧ Jobs s' (update place job p) ∧ (∀ k ∈ s.wait, k ≠ job → k ∈ s'.wait) ∧
      s'.m_jobs = s.m_jobs ∧ s'.threads = s.threads ∧ s'.m_num_threads = s.m_num_threads ∧
        s'.m_num_idle = s.m_num_idle := by
  have hfits := h.fits job
  rcases (h.wait.mem job).1 hmem with hplace | hplace
  · rw [hplace] at hfits
    have hrecord : s.job job = ⟨.CANCELLED, true, true, 1, false, true, 0, 0⟩ := hfits
    refine ⟨s, .cancelling, ?_, ?_, fun k hk _ => hk, rfl, rfl, rfl, rfl⟩
    · rw [collectOne, hrecord]
      rfl
    · rwa [← hplace, update_eq_self]
  · rw [hplace] at hfits
    have hrecord : s.job job = ⟨.DONE, true, true, 1, true, true, 0, 0⟩ := hfits
    refine ⟨{ s.setJob job ⟨.CANCELLED, true, true, 1, true, true, 0, 0⟩ with
        deleteLater := s.deleteLater ++ [job], wait := s.wait.erase job }, .doomed, ?_, ?_, ?_, rfl, rfl, rfl, rfl⟩
    · rw [collectOne, touch, hrecord]
      rfl
    · constructor
      · exact fits_update h.fits (.inr rfl)
      · exact h.queue.keep (by simp [hplace])
      · exact h.running.keep (by simp [hplace, Place.Runs])
      · exact h.pipe.keep (by simp [hplace, Place.Piped])
      · exact h.wait.leave (by decide) (perm_cons_erase hmem)
      · exact h.finished.keep (by simp [hplace])
      · exact h.deleteLater.enter (by simp [hplace]) rfl (perm_append_singleton _ _)
    · exact fun k hk hne => (mem_erase_of_ne hne).2 hk

/-! ## The loops of `cancelJobs` -/

theorem foldlM_inv {P : CThreadPool → Prop} {Q : CThreadPool → ℕ → Prop} {f : CThreadPool → ℕ → Option CThreadPool}
    (hf : ∀ s job, P s → Q s job → ∃ s', f s job = some s' ∧ P s' ∧ ∀ k, k ≠ job → Q s k → Q s' k) (jobs : List ℕ)
    (hnodup : jobs.Nodup) {s : CThreadPool} (h : P s) (hjobs : ∀ job ∈ jobs, Q s job) : ∃ s',
      jobs.foldlM f s = some s' ∧ P s' := by
  induction jobs generalizing s with
  | nil => exact ⟨s, rfl, h⟩
  | cons job jobs ih =>
    obtain ⟨hjob, hrest⟩ := forall_mem_cons.1 hjobs
    obtain ⟨hout, hnodup⟩ := nodup_cons.1 hnodup
    obtain ⟨s', hs', h', hkeep⟩ := hf s job h hjob
    obtain ⟨t, ht, hP⟩ := ih hnodup h' fun k hk => hkeep k (fun heq => hout (heq ▸ hk)) (hrest k hk)
    exact ⟨t, by rw [foldlM_cons, hs']; exact ht, hP⟩

/-- the pool and its jobs -/
def Sound (s : CThreadPool) : Prop := Pool s ∧ ∃ place, Jobs s place

/-- a job that is live and not cancelled -/
def Open (s : CThreadPool) (job : ℕ) : Prop := (s.job job).bLive = true ∧ (s.job job).bCancelled = false

theorem Jobs.place_of_open (h : Jobs s place) (hopen : s.Open job) :
    place job = .queued ∨ place job = .running ∨ place job = .piped := by
  have hfits := h.fits job
  obtain ⟨hlive, hcancelled⟩ := hopen
  cases hplace : place job with
  | queued => exact .inl rfl
  | running => exact .inr (.inl rfl)
  | piped => exact .inr (.inr rfl)
  | gone => exact absurd hplace ((h.live_iff job).1 hlive)
  | doomed =>
    rw [hplace] at hfits
    rcases hfits with heq | heq <;> rw [heq] at hcancelled <;> cases hcancelled
  | _ =>
    rw [hplace] at hfits
    have heq : s.job job = _ := hfits
    rw [heq] at hcancelled
    cases hcancelled

theorem cancelOne_sound (s : CThreadPool) (job : ℕ) (h : Sound s) (hopen : s.Open job) :
    ∃ s', (s.called [job]).cancelOne job = some s' ∧ Sound s' ∧ ∀ k, k ≠ job → s.Open k → s'.Open k := by
  obtain ⟨hpool, place, hjobs⟩ := h
  obtain ⟨s', p, hs', hjobs', hless, hthreads, hnum, hidle, hother⟩ := hjobs.cancel (hjobs.place_of_open hopen)
  refine ⟨s', hs', ⟨?_, _, hjobs'⟩, fun k hk hopen => ?_⟩
  · rw [Pool, hthreads, hnum, hidle]
    exact hpool.less hless
  · rw [Open, hother k hk]
    exact hopen

theorem collectOne_sound (s : CThreadPool) (job : ℕ) (h : Sound s) (hmem : job ∈ s.wait) :
    ∃ s', s.collectOne job = some s' ∧ Sound s' ∧ ∀ k, k ≠ job → k ∈ s.wait → k ∈ s'.wait := by
  obtain ⟨hpool, place, hjobs⟩ := h
  obtain ⟨s', p, hs', hjobs', hkeep, hm_jobs, hthreads, hnum, hidle⟩ := hjobs.collect hmem
  refine ⟨s', hs', ⟨?_, _, hjobs'⟩, fun k hk hin => hkeep k hin hk⟩
  rw [Pool, hm_jobs, hthreads, hnum, hidle]
  exact hpool

/-- the sets of `cancelJobs` are empty outside of it, and nobody is waited for behind the unlock -/
structure Phased (s : CThreadPool) : Prop where
  free : s.phase = .free → s.wait = [] ∧ s.finished = [] ∧ s.deleteLater = []
  draining : s.phase = .draining → s.wait = []

theorem Sound.collect (h : Sound s) : ∃ s', s.collect = some s' ∧ Sound s' ∧ Phased s' := by
  obtain ⟨place, hjobs⟩ := h.2
  obtain ⟨s', hs', hpool, place', hjobs'⟩ := foldlM_inv collectOne_sound s.wait hjobs.wait.nodup h fun _ hmem => hmem
  rw [CThreadPool.collect, hs']
  refine ⟨_, rfl, ⟨hpool, place', hjobs'.fits, hjobs'.queue, hjobs'.running, hjobs'.pipe, hjobs'.wait, hjobs'.finished,
    hjobs'.deleteLater⟩, ?_, ?_⟩
  · intro hphase
    dsimp only at hphase
    split_ifs at hphase
  · intro hphase
    dsimp only at hphase ⊢
    split_ifs at hphase with hwait
    exact hwait

theorem deleteAll (deleteLater : List ℕ) (hpool : Pool s) (hjobs : Jobs { s with deleteLater := deleteLater } place) :
    ∃ s' place', deleteLater.foldlM deleteJob s = some s' ∧ Pool s' ∧ Jobs { s' with deleteLater := [] } place' ∧
      s'.wait = s.wait ∧ s'.finished = s.finished := by
  induction deleteLater generalizing s place with
  | nil => exact ⟨s, place, rfl, hpool, hjobs, rfl, rfl⟩
  | cons job deleteLater ih =>
    have hplace : place job = .doomed := (hjobs.deleteLater.mem job).1 mem_cons_self
    have hlive : (s.job job).bLive = true := (hjobs.live_iff job).2 (by rw [hplace]; decide)
    have hclosed : Closed { s.job job with bLive := false, deleted := (s.job job).deleted + 1 } := by
      have hfits := hjobs.fits job
      rw [hplace] at hfits
      rcases hfits with heq | heq
      · have hrecord : s.job job = _ := heq
        rw [hrecord]
        exact ⟨rfl, Nat.zero_le 1, rfl, rfl⟩
      · have hrecord : s.job job = _ := heq
        rw [hrecord]
        exact ⟨rfl, le_rfl, rfl, rfl⟩
    have hnext : Jobs { s.setJob job { s.job job with bLive := false, deleted := (s.job job).deleted + 1 } with
        deleteLater := deleteLater } (update place job .gone) := by
      constructor
      · exact fits_update hjobs.fits hclosed
      · exact hjobs.queue.keep (by simp [hplace])
      · exact hjobs.running.keep (by simp [hplace, Place.Runs])
      · exact hjobs.pipe.keep (by simp [hplace, Place.Piped])
      · exact hjobs.wait.keep (by simp [hplace, Place.Waits])
      · exact hjobs.finished.keep (by simp [hplace])
      · exact hjobs.deleteLater.leave (by decide) (List.Perm.refl _)
    obtain ⟨s', place', hs', hpool', hjobs', hwait, hfinished⟩ :=
      ih (s := s.setJob job { s.job job with bLive := false, deleted := (s.job job).deleted + 1 }) hpool hnext
    refine ⟨s', place', ?_, hpool', hjobs', hwait, hfinished⟩
    rw [foldlM_cons, deleteJob, touch_of_live hlive]
    exact hs'

/-! ## A step -/

structure Inv (s : CThreadPool) : Prop where
  sound : Sound s
  phased : Phased s

theorem Jobs.free (h : Jobs s place) (hsets : s.wait = [] ∧ s.finished = [] ∧ s.deleteLater = []) (job : ℕ) :
    place job = .gone ∨ place job = .queued ∨ place job = .running ∨ place job = .piped := by
  obtain ⟨hwait, hfinished, hdelete⟩ := hsets
  have hnotWait := (hwait ▸ h.wait).not_of_nil job
  have hnotFinished := (hfinished ▸ h.finished).not_of_nil job
  have hnotDelete := (hdelete ▸ h.deleteLater).not_of_nil job
  cases hplace : place job <;> simp_all [Place.Waits]

theorem Inv.addJob (h : Inv s) (hnew : (s.job job).bLive = false) (k : ℕ) : Inv (s.addJob job k) := by
  obtain ⟨⟨hpool, place, hjobs⟩, hphased⟩ := h
  have hgone : place job = .gone := by
    by_contra hplace
    rw [(hjobs.live_iff job).2 hplace] at hnew
    cases hnew
  obtain ⟨threads, m_num_threads, heq, hworkers, hthreads⟩ := hpool.addJob job k
  rw [heq]
  refine ⟨⟨?_, _, hjobs.add hgone m_num_threads hthreads⟩, hphased.free, hphased.draining⟩
  show Workers (s.m_jobs ++ [job]).length threads m_num_threads s.m_num_idle
  rwa [length_append, length_singleton]

theorem Inv.cancelJobs (h : Inv s) (hphase : s.phase = .free) {jobs : List ℕ} (hnodup : jobs.Nodup)
    (hlive : ∀ job ∈ jobs, (s.job job).bLive = true) : ∃ s', (s.called jobs).cancelJobs jobs = some s' ∧ Inv s' := by
  obtain ⟨place, hjobs⟩ := h.sound.2
  have hopen : ∀ job ∈ jobs, s.Open job := by
    intro job hjob
    refine ⟨hlive job hjob, ?_⟩
    have hfits := hjobs.fits job
    rcases hjobs.free (h.phased.free hphase) job with hplace | hplace | hplace | hplace
    · exact absurd hplace ((hjobs.live_iff job).1 (hlive job hjob))
    all_goals
      rw [hplace] at hfits
      have heq : s.job job = _ := hfits
      simp [heq, newJob]
  obtain ⟨s₁, hs₁, hsound⟩ := foldlM_inv cancelOne_sound jobs hnodup h.sound hopen
  obtain ⟨s', hs', hsound', hphased⟩ := hsound.collect
  refine ⟨s', ?_, hsound', hphased⟩
  rw [CThreadPool.cancelJobs, foldlM_called hnodup, hs₁]
  exact hs'

theorem Inv.handlePipeReadable (h : Inv s) (hphase : s.phase = .free) :
    ∃ s', s.handlePipeReadable = some s' ∧ Inv s' := by
  rw [CThreadPool.handlePipeReadable]
  obtain ⟨⟨hpool, place, hjobs⟩, hphased⟩ := h
  obtain ⟨hwait, hfinished, hdelete⟩ := hphased.free hphase
  cases hpipe : s.m_iJobPipe with
  | nil => exact ⟨s, rfl, ⟨hpool, place, hjobs⟩, hphased⟩
  | cons job m_iJobPipe =>
    obtain ⟨s', hs', hjobs', hm_jobs, hthreads, hnum, hidle, hphase', hwait', hfinished', hdelete'⟩ :=
      hjobs.finish hpipe (by rw [hfinished]; exact not_mem_nil)
    refine ⟨s', hs', ⟨?_, _, hjobs'⟩, fun _ => ?_, fun _ => ?_⟩
    · rw [Pool, hm_jobs, hthreads, hnum, hidle]
      exact hpool
    · rw [hwait', hfinished', hdelete']
      exact ⟨hwait, hfinished, hdelete⟩
    · rw [hwait', hwait]

theorem Inv.drain (h : Inv s) (hphase : s.phase = .draining) : ∃ s', s.drain = some s' ∧ Inv s' := by
  rw [CThreadPool.drain]
  obtain ⟨⟨hpool, place, hjobs⟩, hphased⟩ := h
  have hwait := hphased.draining hphase
  by_cases hempty : s.finished = []
  · obtain ⟨s', place', hs', hpool', hjobs', hwait', hfinished'⟩ := deleteAll s.deleteLater hpool hjobs
    rw [if_pos hempty, hs']
    refine ⟨_, rfl, ⟨hpool', place', hjobs'.fits, hjobs'.queue, hjobs'.running, hjobs'.pipe,
      hjobs'.wait, hjobs'.finished,
      hjobs'.deleteLater⟩, fun _ => ⟨hwait'.trans hwait, hfinished'.trans hempty, rfl⟩, fun hphase => ?_⟩
    cases hphase
  · rw [if_neg hempty]
    cases hpipe : s.m_iJobPipe with
    | nil => exact ⟨s, rfl, ⟨hpool, place, hjobs⟩, hphased⟩
    | cons job m_iJobPipe =>
      dsimp only
      by_cases hmem : job ∈ s.finished
      · obtain ⟨hstate, s', hs', hjobs', hm_jobs, hthreads, hnum, hidle, hphase', hwait'⟩ := hjobs.condemn hpipe hmem
        rw [if_pos hmem, if_pos hstate]
        refine ⟨s', hs', ⟨?_, _, hjobs'⟩, fun hfree => ?_, fun _ => hwait'.trans hwait⟩
        · rw [Pool, hm_jobs, hthreads, hnum, hidle]
          exact hpool
        · rw [hphase', hphase] at hfree
          cases hfree
      · obtain ⟨s', hs', hjobs', hm_jobs, hthreads, hnum, hidle, hphase', hwait', hfinished', hdelete'⟩ :=
          hjobs.finish hpipe hmem
        rw [if_neg hmem]
        refine ⟨s', hs', ⟨?_, _, hjobs'⟩, fun hfree => ?_, fun _ => hwait'.trans hwait⟩
        · rw [Pool, hm_jobs, hthreads, hnum, hidle]
          exact hpool
        · rw [hphase', hphase] at hfree
          cases hfree

theorem threadFunc_loopHead (hhead : AtHead s pre post t)
    (hjobs : Jobs { s with threads := pre ++ .starting :: post } place)
    (hphased : Phased s) : ∃ s', s.loopHead pre.length = some s' ∧ Inv s' := by
  have hlive : ∀ job ∈ s.m_jobs, (s.job job).bLive = true := fun job hjob => by
    have hplace : place job = .queued := (hjobs.queue.mem job).1 hjob
    exact (hjobs.live_iff job).2 (by rw [hplace]; decide)
  obtain ⟨s', hs', hpool, hdoes⟩ := hhead.loopHead hlive
  have hplaces := hjobs.loopHead (filterMap_skip pre post rfl) hdoes
  refine ⟨s', hs', ⟨hpool, hplaces⟩, ?_⟩
  rcases hdoes with rfl | ⟨job, m_jobs, -, rfl⟩ | rfl
  · exact ⟨hphased.free, hphased.draining⟩
  · exact ⟨hphased.free, hphased.draining⟩
  · exact ⟨hphased.free, hphased.draining⟩

theorem Inv.threadFunc (h : Inv s) (i : ℕ) : ∃ s', s.threadFunc i = some s' ∧ Inv s' := by
  rw [CThreadPool.threadFunc]
  cases hget : s.threads[i]? with
  | none => exact ⟨s, rfl, h⟩
  | some t =>
    obtain ⟨⟨hpool, place, hjobs⟩, hphased⟩ := h
    obtain ⟨pre, post, hthreads, rfl⟩ := split_at hget
    -- the jobs of the others
    have hothers : t.job? = none → Jobs { s with threads := pre ++ .starting :: post } place := fun ht => by
      refine hjobs.rethread ?_ _ _
      rw [hthreads, filterMap_skip pre post ht, filterMap_skip pre post rfl]
    cases t with
    | starting =>
      have hhead := hpool.unoccupied hthreads (by simp)
      exact threadFunc_loopHead hhead ((hothers rfl).rethread rfl _ _) ⟨hphased.free, hphased.draining⟩
    | waiting => exact threadFunc_loopHead (hpool.woken hthreads (.inl rfl)) (hothers rfl) hphased
    | notified => exact threadFunc_loopHead (hpool.woken hthreads (.inr rfl)) (hothers rfl) hphased
    | running job =>
      obtain ⟨s₁, place', hs₁, hjobs₁, hm_jobs, hthreads₁, hnum, hidle, hphase, hwait, hfinished, hdelete⟩ :=
        hjobs.done hthreads
      have hpool₁ : Pool s₁ := by
        rw [Pool, hm_jobs, hthreads₁, hnum, hidle]
        exact hpool
      have hphased₁ : Phased s₁ := by
        refine ⟨fun hfree => ?_, fun hdraining => ?_⟩
        · rw [hwait, hfinished, hdelete]
          exact hphased.free (hphase ▸ hfree)
        · rw [hwait]
          exact hphased.draining (hphase ▸ hdraining)
      have hhead := hpool₁.unoccupied (hthreads₁.trans hthreads) (by simp)
      dsimp only
      rw [hs₁]
      exact threadFunc_loopHead hhead (hjobs₁.rethread rfl _ _) ⟨hphased₁.free, hphased₁.draining⟩

theorem step_inv (h : Inv s) (ev : Event) : ∃ s', s.step ev = some s' ∧ Inv s' := by
  cases ev with
  | addJob job k =>
    rw [step]
    by_cases hno : s.phase = .waiting ∨ (s.job job).bLive = true
    · rw [if_pos hno]
      exact ⟨s, rfl, h⟩
    · rw [if_neg hno]
      exact ⟨_, rfl, h.addJob (Bool.eq_false_of_not_eq_true fun hlive => hno (.inr hlive)) k⟩
  | cancelJobs jobs =>
    rw [step]
    split_ifs with hcall
    · exact h.cancelJobs hcall.1 hcall.2.1 hcall.2.2
    · exact ⟨s, rfl, h⟩
  | resume =>
    rw [step]
    split_ifs
    · obtain ⟨s', hs', hsound, hphased⟩ := h.sound.collect
      exact ⟨s', hs', hsound, hphased⟩
    · exact ⟨s, rfl, h⟩
  | drain =>
    rw [step]
    split_ifs with hphase
    · exact h.drain hphase
    · exact ⟨s, rfl, h⟩
  | handlePipeReadable =>
    rw [step]
    split_ifs with hphase
    · exact h.handlePipeReadable hphase
    · exact ⟨s, rfl, h⟩
  | thread i => exact h.threadFunc i

/-! ## The law of the pool -/

/-- **The law of the pool.** -/
structure Good (s : CThreadPool) : Prop where
  once : ∀ job, (s.job job).runThread ≤ 1
  main : ∀ job, (s.job job).runMain ≤ 1 ∧
    ((s.job job).runMain = 1 → (s.job job).bFinished = true ∧ (s.job job).bCancelled = false)
  finished : ∀ job, (s.job job).bFinished = true → (s.job job).bCancelled = false →
    (s.job job).runMain = 1 ∨ job ∈ s.m_iJobPipe
  deleted : ∀ job, (s.job job).bAdded = true → (s.job job).bLive = false → (s.job job).deleted = 1
  kept : ∀ job, (s.job job).bLive = true → (s.job job).deleted = 0 ∧ (job ∈ s.m_jobs ∨ .running job ∈ s.threads ∨
    job ∈ s.m_iJobPipe ∨ (s.phase ≠ .free ∧ (job ∈ s.wait ∨ job ∈ s.deleteLater)))
  total : s.threads.length ≤ MAX_TOTAL_THREADS
  idle : s.threads.countP Thread.isIdle ≤ MAX_IDLE_THREADS
  stranded : s.m_jobs ≠ [] → ∃ t ∈ s.threads, t ≠ .waiting
  returned : s.phase = .free → ∀ job, (s.job job).bCancelled = true →
    job ∉ s.m_jobs ∧ .running job ∉ s.threads ∧ job ∉ s.m_iJobPipe ∧ (s.job job).bLive = false

theorem fits_facts {p : Place} {c : CJob} (h : p.Fits c) : c.runThread ≤ 1 ∧ c.runMain ≤ 1 ∧
    (c.runMain = 1 → c.bFinished = true ∧ c.bCancelled = false) ∧
    (c.bFinished = true → c.bCancelled = false → c.runMain = 1 ∨ p = .piped) ∧
    (c.bAdded = true → c.bLive = false → c.deleted = 1) ∧ (c.bLive = true → c.deleted = 0 ∧ p ≠ .gone) ∧
    (c.bCancelled = true → p ≠ .queued ∧ p ≠ .running ∧ p ≠ .piped) := by
  cases p with
  | gone =>
    obtain ⟨hlive, honce, hmain, hdeleted⟩ := h
    refine ⟨honce, ?_, ?_, ?_, ?_, ?_, ?_⟩
    · rw [hmain]
      split_ifs <;> simp
    · intro hone
      rw [hmain] at hone
      split_ifs at hone with hboth
      exact ⟨hboth.1, Bool.eq_false_of_not_eq_true hboth.2⟩
    · intro hfinished hcancelled
      rw [hmain]
      simp [hfinished, hcancelled]
    · intro hadded _
      rw [hdeleted, if_pos hadded]
    · intro hin
      rw [hlive] at hin
      cases hin
    · intro _
      simp
  | doomed => rcases h with rfl | rfl <;> simp
  | _ =>
    have heq : c = _ := h
    subst heq
    simp [newJob]

theorem Jobs.kept (h : Jobs s place) (hin : place job ≠ .gone) : job ∈ s.m_jobs ∨ .running job ∈ s.threads ∨
    job ∈ s.m_iJobPipe ∨ job ∈ s.wait ∨ job ∈ s.deleteLater := by
  have hrunning : place job = .running ∨ place job = .cancelling → .running job ∈ s.threads := fun hplace => by
    obtain ⟨t, ht, hjob⟩ := mem_filterMap.1 ((h.running.mem job).2 hplace)
    cases t with
    | running k =>
      obtain rfl := Option.some.inj hjob
      exact ht
    | _ => cases hjob
  cases hplace : place job with
  | gone => exact absurd hplace hin
  | queued => exact .inl ((h.queue.mem job).2 hplace)
  | running => exact .inr (.inl (hrunning (.inl hplace)))
  | cancelling => exact .inr (.inl (hrunning (.inr hplace)))
  | piped => exact .inr (.inr (.inl ((h.pipe.mem job).2 (.inl hplace))))
  | condemned => exact .inr (.inr (.inl ((h.pipe.mem job).2 (.inr hplace))))
  | awaited => exact .inr (.inr (.inr (.inl ((h.wait.mem job).2 (.inr hplace)))))
  | doomed => exact .inr (.inr (.inr (.inr ((h.deleteLater.mem job).2 hplace))))

theorem Inv.good (h : Inv s) : Good s := by
  obtain ⟨⟨hpool, place, hjobs⟩, hphased⟩ := h
  have hfacts := fun job => fits_facts (hjobs.fits job)
  constructor
  · exact fun job => (hfacts job).1
  · exact fun job => ⟨(hfacts job).2.1, (hfacts job).2.2.1⟩
  · intro job hfinished hcancelled
    rcases (hfacts job).2.2.2.1 hfinished hcancelled with hone | hplace
    · exact .inl hone
    · exact .inr ((hjobs.pipe.mem job).2 (.inl hplace))
  · exact fun job => (hfacts job).2.2.2.2.1
  · intro job hlive
    obtain ⟨hdeleted, hin⟩ := (hfacts job).2.2.2.2.2.1 hlive
    refine ⟨hdeleted, ?_⟩
    rcases hjobs.kept hin with hmem | hmem | hmem | hmem | hmem
    · exact .inl hmem
    · exact .inr (.inl hmem)
    · exact .inr (.inr (.inl hmem))
    · refine .inr (.inr (.inr ⟨fun hfree => ?_, .inl hmem⟩))
      rw [(hphased.free hfree).1] at hmem
      cases hmem
    · refine .inr (.inr (.inr ⟨fun hfree => ?_, .inr hmem⟩))
      rw [(hphased.free hfree).2.2] at hmem
      cases hmem
  · exact hpool.total
  · rw [countP_idle]
    exact hpool.few
  · intro hqueue
    have hless := hpool.busy (by simpa using hqueue)
    by_contra hall
    simp only [not_exists, not_and, not_not] at hall
    rw [count_eq_length.2 fun t ht => (hall t ht).symm] at hless
    exact lt_irrefl _ hless
  · intro hfree job hcancelled
    obtain ⟨hqueued, hrunning, hpiped⟩ := (hfacts job).2.2.2.2.2.2 hcancelled
    have hgone : place job = .gone := by
      rcases hjobs.free (hphased.free hfree) job with hplace | hplace | hplace | hplace
      · exact hplace
      · exact absurd hplace hqueued
      · exact absurd hplace hrunning
      · exact absurd hplace hpiped
    refine ⟨fun hmem => ?_, fun hmem => ?_, fun hmem => ?_, ?_⟩
    · exact hqueued ((hjobs.queue.mem job).1 hmem)
    · have hruns := (hjobs.running.mem job).1 (mem_filterMap.2 ⟨_, hmem, rfl⟩)
      simp [hgone, Place.Runs] at hruns
    · have hin := (hjobs.pipe.mem job).1 hmem
      simp [hgone, Place.Piped] at hin
    · by_contra hlive
      exact (hjobs.live_iff job).1 (Bool.eq_true_of_not_eq_false hlive) hgone

end CThreadPool

/-! ## Runs -/

/-- a step from a state that is there -/
def step (o : Option CThreadPool) (ev : Event) : Option CThreadPool := o.bind (CThreadPool.step · ev)

theorem inv_start : CThreadPool.start.Inv := by
  refine ⟨⟨⟨rfl, rfl, by decide, by decide, by simp [CThreadPool.start], by simp [CThreadPool.start]⟩,
    fun _ => .gone, ?_⟩,
    fun _ => ⟨rfl, rfl, rfl⟩, fun _ => rfl⟩
  constructor
  · exact fun _ => ⟨rfl, Nat.zero_le 1, rfl, rfl⟩
  all_goals exact .nil_of_not fun _ => by decide

end ZNC.ThreadPool
