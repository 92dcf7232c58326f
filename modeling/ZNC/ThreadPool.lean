/-
The thread pool: `CThreadPool` of `src/Threads.cpp`.

The main thread adds jobs, a worker runs each of them, and the main thread finishes them; jobs that are not needed any more are
cancelled wherever they are. Idle workers wait to be notified, and only a few of them stay.

Model: a step is what one thread does with the mutex, or the main thread with the pipe, so that a run is an interleaving of the
threads. A worker is at its place in `threadFunc`; a waiting worker may also wake up without being notified. The step that runs
`runThread` of a job ends where it starts: the next step of the worker comes after it. A job is its address, which may be used again
after the job is deleted. An assertion that fails, and the use of a deleted job, have no result. The pool is not destroyed. What has
happened to a job is written in its record; the code does not read it.
-/
import Mathlib.Tactic

namespace ZNC.ThreadPool

open List

inductive EJobState where
  | READY
  | RUNNING
  | DONE
  | CANCELLED
deriving DecidableEq

/-- a job, and what has happened to it: whether it was added and is not deleted, the calls of its functions, and whether `runThread`
has returned and `cancelJobs` was called for it -/
structure CJob where
  m_eState : EJobState
  bAdded : Bool
  bLive : Bool
  runThread : ℕ
  bFinished : Bool
  bCancelled : Bool
  runMain : ℕ
  deleted : ℕ
deriving DecidableEq

/-- where a worker is in `threadFunc`: before the first lock, in `m_cond.wait`, notified there, or in `runThread` -/
inductive Thread where
  | starting
  | waiting
  | notified
  | running (job : ℕ)
deriving DecidableEq

namespace Thread

/-- the job that the worker runs -/
def job? : Thread → Option ℕ
  | .running job => some job
  | _ => none

/-- the worker is in `m_cond.wait` -/
def isIdle : Thread → Bool
  | .waiting => true
  | .notified => true
  | _ => false

end Thread

/-- where the main thread is: not in `cancelJobs`, in its wait, or behind its unlock -/
inductive Phase where
  | free
  | waiting
  | draining
deriving DecidableEq

/-- the pool; the last three lists are the sets of `cancelJobs` -/
structure CThreadPool where
  job : ℕ → CJob
  m_num_threads : ℕ
  m_num_idle : ℕ
  m_iJobPipe : List ℕ
  m_jobs : List ℕ
  threads : List Thread
  phase : Phase
  wait : List ℕ
  finished : List ℕ
  deleteLater : List ℕ

def MAX_IDLE_THREADS : ℕ := 3
def MAX_TOTAL_THREADS : ℕ := 20

/-- The steps. The thread that is notified is any that waits; `thread i` is the next step of a worker, `resume` that of `cancelJobs`
when it wakes up, and `drain` what it does behind the unlock. -/
inductive Event where
  | addJob (job k : ℕ)
  | cancelJobs (jobs : List ℕ)
  | resume
  | drain
  | handlePipeReadable
  | thread (i : ℕ)
deriving DecidableEq

namespace CThreadPool

def setJob (s : CThreadPool) (job : ℕ) (c : CJob) : CThreadPool := { s with job := Function.update s.job job c }

/-- a job that is deleted is not touched -/
def touch (s : CThreadPool) (job : ℕ) (f : CJob → CJob) : Option CThreadPool :=
  if (s.job job).bLive then some (s.setJob job (f (s.job job))) else none

def deleteJob (s : CThreadPool) (job : ℕ) : Option CThreadPool :=
  s.touch job fun c => { c with bLive := false, deleted := c.deleted + 1 }

def finishJob (s : CThreadPool) (job : ℕ) : Option CThreadPool :=
  (s.touch job fun c => { c with runMain := c.runMain + 1 }).bind fun s => s.deleteJob job

def jobDone (s : CThreadPool) (job : ℕ) : Option CThreadPool :=
  let oldState := (s.job job).m_eState
  (s.touch job fun c => { c with m_eState := .DONE, bFinished := true }).bind fun s =>
    if oldState = .CANCELLED then some s else some { s with m_iJobPipe := s.m_iJobPipe ++ [job] }

def threadNeeded (s : CThreadPool) : Bool := !(s.m_num_idle > MAX_IDLE_THREADS)

/-- the end of `threadFunc` -/
def exitThread (s : CThreadPool) (i : ℕ) : Option CThreadPool :=
  if s.m_num_threads > 0 ∧ s.m_num_idle > 0 then
    some { s with m_num_threads := s.m_num_threads - 1, m_num_idle := s.m_num_idle - 1,
                  threads := s.threads.eraseIdx i }
  else none

/-- `threadFunc` from the head of its loop to the next unlock -/
def loopHead (s : CThreadPool) (i : ℕ) : Option CThreadPool :=
  match s.m_jobs with
  | [] => if s.threadNeeded then some { s with threads := s.threads.set i .waiting } else s.exitThread i
  | job :: m_jobs =>
    if s.threadNeeded then
      { s with m_jobs := m_jobs, m_num_idle := s.m_num_idle - 1, threads := s.threads.set i (.running job) }.touch job
        fun c => { c with m_eState := .RUNNING, runThread := c.runThread + 1 }
    else s.exitThread i

/-- the next step of a worker: it gets the mutex where it is -/
def threadFunc (s : CThreadPool) (i : ℕ) : Option CThreadPool :=
  match s.threads[i]? with
  | none => some s
  | some .starting => { s with m_num_idle := s.m_num_idle + 1 }.loopHead i
  | some .waiting => s.loopHead i
  | some .notified => s.loopHead i
  | some (.running job) => (s.jobDone job).bind fun s => { s with m_num_idle := s.m_num_idle + 1 }.loopHead i

/-- `m_cond.notify_one()`: the thread `k` if it waits, else another one that does, if there is one -/
def notifyOne (s : CThreadPool) (k : ℕ) : CThreadPool :=
  if s.threads[k]? = some .waiting then { s with threads := s.threads.set k .notified }
  else
    match s.threads.findIdx? (· = .waiting) with
    | none => s
    | some i => { s with threads := s.threads.set i .notified }

def newJob : CJob := ⟨.READY, true, true, 0, false, false, 0, 0⟩

def addJob (s : CThreadPool) (job k : ℕ) : CThreadPool :=
  let s := { s.setJob job newJob with m_jobs := s.m_jobs ++ [job] }
  if s.m_num_idle > 0 then s.notifyOne k
  else if s.m_num_threads ≥ MAX_TOTAL_THREADS then s
  else { s with m_num_threads := s.m_num_threads + 1, threads := s.threads ++ [.starting] }

/-- the first loop of `cancelJobs`, for one job -/
def cancelOne (s : CThreadPool) (job : ℕ) : Option CThreadPool :=
  let c := s.job job
  (s.touch job fun c => { c with m_eState := .CANCELLED }).bind fun s =>
    match c.m_eState with
    | .READY =>
      if job ∈ s.m_jobs then some { s with m_jobs := s.m_jobs.erase job,
                                           deleteLater := s.deleteLater ++ [job] } else none
    | .RUNNING => some { s with wait := s.wait ++ [job] }
    | .DONE => some { s with finished := s.finished ++ [job] }
    | .CANCELLED => none

/-- the second loop of `cancelJobs`, for one job -/
def collectOne (s : CThreadPool) (job : ℕ) : Option CThreadPool :=
  if (s.job job).bLive then
    if (s.job job).m_eState ≠ .CANCELLED then
      if (s.job job).m_eState = .DONE then
        (s.touch job fun c => { c with m_eState := .CANCELLED }).map fun s =>
          { s with deleteLater := s.deleteLater ++ [job], wait := s.wait.erase job }
      else none
    else some s
  else none

/-- the second loop up to its wait, or its end -/
def collect (s : CThreadPool) : Option CThreadPool :=
  (s.wait.foldlM collectOne s).map fun s => { s with phase := if s.wait = [] then .draining else .waiting }

def cancelJobs (s : CThreadPool) (jobs : List ℕ) : Option CThreadPool := (jobs.foldlM cancelOne s).bind collect

/-- `cancelJobs` is called for these jobs -/
def called (s : CThreadPool) (jobs : List ℕ) : CThreadPool :=
  { s with job := fun job => if job ∈ jobs then { s.job job with bCancelled := true } else s.job job }

/-- the last two loops of `cancelJobs`: one job of the pipe, or all that is to be deleted -/
def drain (s : CThreadPool) : Option CThreadPool :=
  if s.finished = [] then
    (s.deleteLater.foldlM deleteJob s).map fun s => { s with deleteLater := [], phase := .free }
  else
    match s.m_iJobPipe with
    | [] => some s
    | job :: m_iJobPipe =>
      let s := { s with m_iJobPipe := m_iJobPipe }
      if job ∈ s.finished then
        if (s.job job).m_eState = .CANCELLED then { s with finished := s.finished.erase job }.deleteJob job else none
      else s.finishJob job

def handlePipeReadable (s : CThreadPool) : Option CThreadPool :=
  match s.m_iJobPipe with
  | [] => some s
  | job :: m_iJobPipe => { s with m_iJobPipe := m_iJobPipe }.finishJob job

/-- One step, if it can be made: the main thread adds jobs unless it waits (`runMain` may add some while `cancelJobs` drains the pipe),
a job is new where it is added, and only jobs that are not finished are cancelled. -/
def step (s : CThreadPool) : Event → Option CThreadPool
  | .addJob job k => some (if s.phase = .waiting ∨ (s.job job).bLive then s else s.addJob job k)
  | .cancelJobs jobs => if s.phase = .free ∧ jobs.Nodup ∧
      ∀ job ∈ jobs, (s.job job).bLive then (s.called jobs).cancelJobs jobs else some s
  | .resume => if s.phase = .waiting then s.collect else some s
  | .drain => if s.phase = .draining then s.drain else some s
  | .handlePipeReadable => if s.phase = .free then s.handlePipeReadable else some s
  | .thread i => s.threadFunc i

/-- the pool before its first job -/
def start : CThreadPool := ⟨fun _ => ⟨.READY, false, false, 0, false, false, 0, 0⟩, 0, 0, [], [], [], .free, [], [], []⟩

variable {s s' : CThreadPool}

theorem touch_of_live {job : ℕ} (h : (s.job job).bLive = true) (f : CJob → CJob) :
    s.touch job f = some (s.setJob job (f (s.job job))) := if_pos h

/-! ## The workers -/

/-- The workers for `queue` jobs: the counters count them, there are not too many, every idle worker that is not notified leaves its
jobs to one that is, and while there are jobs not all workers wait. -/
structure Workers (queue : ℕ) (threads : List Thread) (m_num_threads m_num_idle : ℕ) : Prop where
  num : m_num_threads = threads.length
  idle : m_num_idle = threads.count .waiting + threads.count .notified
  total : threads.length ≤ 20
  few : threads.count .waiting + threads.count .notified ≤ 3
  notified : threads.count .waiting ≠ 0 → queue ≤ threads.count .notified
  busy : queue ≠ 0 → threads.count .waiting < threads.length

def Pool (s : CThreadPool) : Prop := Workers s.m_jobs.length s.threads s.m_num_threads s.m_num_idle

theorem Workers.less {queue fewer m_num_threads m_num_idle : ℕ} {threads : List Thread}
    (h : Workers queue threads m_num_threads m_num_idle) (hle : fewer ≤ queue) :
    Workers fewer threads m_num_threads m_num_idle :=
  ⟨h.num, h.idle, h.total, h.few, fun hwait => hle.trans (h.notified hwait), fun hjobs => h.busy (by omega)⟩

variable {pre post : List Thread} {t : Thread}

theorem count_place (pre post : List Thread) (t u : Thread) :
    (pre ++ t :: post).count u = (pre ++ post).count u + if t = u then 1 else 0 := by
  rw [count_append, count_cons, count_append]
  by_cases htu : t = u
  · simp [htu]
    omega
  · simp [htu]

theorem length_place (pre post : List Thread) (t : Thread) : (pre ++ t :: post).length = (pre ++ post).length + 1 := by
  simp
  omega

theorem countP_idle (threads : List Thread) :
    threads.countP Thread.isIdle = threads.count .waiting + threads.count .notified := by
  induction threads with
  | nil => rfl
  | cons t threads ih =>
    rw [countP_cons, count_cons, count_cons, ih]
    cases t <;> simp [Thread.isIdle] <;> omega

theorem count_le (threads : List Thread) : threads.count .waiting + threads.count .notified ≤ threads.length := by
  induction threads with
  | nil => simp
  | cons t threads ih =>
    rw [count_cons, count_cons, length_cons]
    cases t <;> simp <;> omega

/-- A worker at the head of the loop: it counts as idle. Where three others do, they are enough for the jobs; else there is at most one
job more. -/
structure AtHead (s : CThreadPool) (pre post : List Thread) (t : Thread) : Prop where
  threads : s.threads = pre ++ t :: post
  num : s.m_num_threads = s.threads.length
  idle : s.m_num_idle = (pre ++ post).count .waiting + (pre ++ post).count .notified + 1
  total : s.threads.length ≤ 20
  few : (pre ++ post).count .waiting + (pre ++ post).count .notified ≤ 3
  notified : (pre ++ post).count .waiting ≠ 0 → s.m_jobs.length ≤ (pre ++ post).count .notified + 1
  enough : (pre ++ post).count .waiting + (pre ++ post).count .notified = 3 → (pre ++ post).count .waiting ≠ 0 →
    s.m_jobs.length ≤ (pre ++ post).count .notified

/-- the worker ends -/
def ended (s : CThreadPool) (pre post : List Thread) : CThreadPool :=
  { s with m_num_threads := s.m_num_threads - 1, m_num_idle := s.m_num_idle - 1, threads := pre ++ post }

def waiting (s : CThreadPool) (pre post : List Thread) : CThreadPool := { s with threads := pre ++ .waiting :: post }

/-- the worker runs the first job -/
def taken (s : CThreadPool) (pre post : List Thread) (job : ℕ) (m_jobs : List ℕ) : CThreadPool :=
  { s with
    job := Function.update s.job job { s.job job with m_eState := .RUNNING, runThread := (s.job job).runThread + 1 }
    m_jobs := m_jobs
    m_num_idle := s.m_num_idle - 1
    threads := pre ++ .running job :: post }

theorem AtHead.ended (h : AtHead s pre post t) (hneeded : s.threadNeeded = false) :
    s.exitThread pre.length = some (s.ended pre post) ∧ Pool (s.ended pre post) := by
  have hidle := h.idle
  have hfew := h.few
  have hmany : 3 < s.m_num_idle := by simpa [threadNeeded, MAX_IDLE_THREADS] using hneeded
  have henough := h.enough (by omega)
  have hnum := h.num
  have htotal := h.total
  have hcount := count_le (pre ++ post)
  rw [h.threads, length_place] at hnum htotal
  have herase : s.threads.eraseIdx pre.length = pre ++ post := by
    rw [h.threads, eraseIdx_append_of_length_le le_rfl, Nat.sub_self, eraseIdx_cons_zero]
  refine ⟨?_, ⟨?_, ?_, ?_, hfew, henough, ?_⟩⟩
  · rw [exitThread, if_pos ⟨by omega, by omega⟩, herase, CThreadPool.ended]
  · simp only [CThreadPool.ended]
    omega
  · simp only [CThreadPool.ended]
    omega
  · simp only [CThreadPool.ended]
    omega
  · intro hjobs
    simp only [CThreadPool.ended] at hjobs ⊢
    by_cases hwait : (pre ++ post).count .waiting = 0
    · omega
    · have hn := henough hwait
      omega

theorem AtHead.set_threads (h : AtHead s pre post t) (u : Thread) : s.threads.set pre.length u = pre ++ u :: post := by
  rw [h.threads, set_append_right _ _ le_rfl, Nat.sub_self, set_cons_zero]

theorem AtHead.waiting (h : AtHead s pre post t) (hneeded : s.threadNeeded = true) (hjobs : s.m_jobs = []) :
    s.loopHead pre.length = some (s.waiting pre post) ∧ Pool (s.waiting pre post) := by
  have hidle := h.idle
  have hfew : s.m_num_idle ≤ 3 := by simpa [threadNeeded, MAX_IDLE_THREADS] using hneeded
  have hnum := h.num
  have htotal := h.total
  rw [h.threads, length_place] at hnum htotal
  constructor
  · rw [loopHead]
    split
    · rw [if_pos hneeded, h.set_threads]
      rfl
    · rename_i hcons
      rw [hjobs] at hcons
      cases hcons
  · show Workers s.m_jobs.length (pre ++ .waiting :: post) s.m_num_threads s.m_num_idle
    rw [hjobs]
    constructor
    · rw [length_place]
      exact hnum
    · rw [count_place, count_place, if_pos rfl, if_neg (by decide)]
      omega
    · rw [length_place]
      exact htotal
    · rw [count_place, count_place, if_pos rfl, if_neg (by decide)]
      omega
    · exact fun _ => Nat.zero_le _
    · exact fun hjobs => absurd rfl hjobs

theorem AtHead.taken (h : AtHead s pre post t) (hneeded : s.threadNeeded = true) {job : ℕ} {m_jobs : List ℕ}
    (hjobs : s.m_jobs = job :: m_jobs) (hlive : (s.job job).bLive = true) :
    s.loopHead pre.length = some (s.taken pre post job m_jobs) ∧ Pool (s.taken pre post job m_jobs) := by
  have hidle := h.idle
  have hfew : s.m_num_idle ≤ 3 := by simpa [threadNeeded, MAX_IDLE_THREADS] using hneeded
  have hnum := h.num
  have htotal := h.total
  have hnot := h.notified
  have hcount := count_le (pre ++ post)
  rw [h.threads, length_place] at hnum htotal
  rw [hjobs, length_cons] at hnot
  constructor
  · rw [loopHead]
    split
    · rename_i hnil
      rw [hjobs] at hnil
      cases hnil
    · rename_i hcons
      obtain ⟨rfl, rfl⟩ := List.cons.inj (hjobs.symm.trans hcons)
      rw [if_pos hneeded, h.set_threads]
      exact if_pos hlive
  · show Workers m_jobs.length (pre ++ .running job :: post) s.m_num_threads (s.m_num_idle - 1)
    constructor
    · rw [length_place]
      exact hnum
    · rw [count_place, count_place, if_neg (by simp), if_neg (by simp)]
      omega
    · rw [length_place]
      exact htotal
    · rw [count_place, count_place, if_neg (by simp), if_neg (by simp)]
      omega
    · rw [count_place, count_place, if_neg (by simp), if_neg (by simp)]
      omega
    · intro _
      rw [length_place, count_place, if_neg (by simp)]
      omega

/-- **A worker at the head of the loop** waits, or takes the first job, or ends. -/
theorem AtHead.loopHead (h : AtHead s pre post t) (hlive : ∀ job ∈ s.m_jobs, (s.job job).bLive = true) :
    ∃ s', s.loopHead pre.length = some s' ∧ Pool s' ∧ (s' = s.waiting pre post ∨
      (∃ job m_jobs, s.m_jobs = job :: m_jobs ∧ s' = s.taken pre post job m_jobs) ∨ s' = s.ended pre post) := by
  obtain hjobs | ⟨job, m_jobs, hjobs⟩ : s.m_jobs = [] ∨ ∃ job m_jobs, s.m_jobs = job :: m_jobs := by
    cases s.m_jobs <;> simp
  · cases hneeded : s.threadNeeded with
    | true =>
      obtain ⟨hloop, hpool⟩ := h.waiting hneeded hjobs
      exact ⟨_, hloop, hpool, .inl rfl⟩
    | false =>
      obtain ⟨hexit, hpool⟩ := h.ended hneeded
      refine ⟨_, ?_, hpool, .inr (.inr rfl)⟩
      rw [CThreadPool.loopHead, hjobs, ← hexit]
      exact if_neg (by simp [hneeded])
  · cases hneeded : s.threadNeeded with
    | true =>
      obtain ⟨hloop, hpool⟩ := h.taken hneeded hjobs (hlive job (by rw [hjobs]; exact mem_cons_self))
      exact ⟨_, hloop, hpool, .inr (.inl ⟨job, m_jobs, hjobs, rfl⟩)⟩
    | false =>
      obtain ⟨hexit, hpool⟩ := h.ended hneeded
      refine ⟨_, ?_, hpool, .inr (.inr rfl)⟩
      rw [CThreadPool.loopHead, hjobs, ← hexit]
      exact if_neg (by simp [hneeded])

/-- a worker that counted as busy comes to the head of the loop -/
theorem Pool.unoccupied (h : Pool s) (hthreads : s.threads = pre ++ t :: post) (ht : t ≠ .waiting ∧ t ≠ .notified) :
    AtHead { s with m_num_idle := s.m_num_idle + 1 } pre post t := by
  obtain ⟨hnum, hidle, htotal, hfew, hnot, hbusy⟩ := h
  rw [hthreads, count_place, count_place, if_neg ht.1, if_neg ht.2] at hidle hfew
  rw [hthreads, count_place, count_place, if_neg ht.1, if_neg ht.2] at hnot
  refine ⟨hthreads, hnum, ?_, htotal, hfew, fun hwait => ?_, fun _ hwait => hnot hwait⟩
  · exact congrArg (· + 1) hidle
  · have hle := hnot hwait
    dsimp only
    omega

/-- one that counted as idle -/
theorem Pool.woken (h : Pool s) (hthreads : s.threads = pre ++ t :: post) (ht : t = .waiting ∨ t = .notified) :
    AtHead s pre post t := by
  obtain ⟨hnum, hidle, htotal, hfew, hnot, hbusy⟩ := h
  rw [hthreads, count_place, count_place] at hidle hfew hnot
  have hone : ((if t = .waiting then 1 else 0) + if t = .notified then 1 else 0) = 1 := by
    rcases ht with rfl | rfl <;> rfl
  refine ⟨hthreads, hnum, by omega, htotal, by omega, fun hwait => ?_, fun hthree => by omega⟩
  have hle := hnot (by omega)
  omega

theorem split_at {t : Thread} {threads : List Thread} {i : ℕ} (h : threads[i]? = some t) :
    ∃ pre post, threads = pre ++ t :: post ∧ pre.length = i := by
  obtain ⟨hlt, rfl⟩ := List.getElem?_eq_some_iff.1 h
  obtain ⟨pre, post, hsplit, hlen, -⟩ := @exists_of_set _ _ .starting _ hlt
  exact ⟨pre, post, hsplit, hlen⟩

theorem notifyOne_cases (s : CThreadPool) (k : ℕ) : (s.notifyOne k = s ∧ s.threads.count .waiting = 0) ∨
    ∃ pre post, s.threads = pre ++ .waiting :: post ∧
      s.notifyOne k = { s with threads := pre ++ .notified :: post } := by
  have hone : ∀ i, s.threads[i]? = some .waiting → ∃ pre post, s.threads = pre ++ .waiting :: post ∧
      { s with threads := s.threads.set i .notified } = { s with threads := pre ++ .notified :: post } := by
    intro i hi
    obtain ⟨pre, post, hsplit, hlen⟩ := split_at hi
    refine ⟨pre, post, hsplit, ?_⟩
    rw [hsplit, ← hlen, set_append_right _ _ le_rfl, Nat.sub_self, set_cons_zero]
  rw [notifyOne]
  by_cases hk : s.threads[k]? = some .waiting
  · rw [if_pos hk]
    exact .inr (hone k hk)
  · rw [if_neg hk]
    cases hfind : s.threads.findIdx? (· = .waiting) with
    | none =>
      refine .inl ⟨rfl, count_eq_zero.2 fun hmem => ?_⟩
      have hnone := findIdx?_eq_none_iff.1 hfind .waiting hmem
      simp at hnone
    | some i =>
      refine .inr (hone i ?_)
      obtain ⟨hlt, hi, -⟩ := findIdx?_eq_some_iff_getElem.1 hfind
      rw [getElem?_eq_getElem hlt, of_decide_eq_true hi]

/-- **A new job**: an idle worker is notified, or a new worker starts, or all workers are busy. -/
theorem Pool.addJob (h : Pool s) (job k : ℕ) : ∃ threads m_num_threads, s.addJob job k =
    { s with
      job := Function.update s.job job newJob
      m_jobs := s.m_jobs ++ [job]
      threads := threads
      m_num_threads := m_num_threads } ∧ Workers (s.m_jobs.length + 1) threads m_num_threads s.m_num_idle ∧
      threads.filterMap Thread.job? = s.threads.filterMap Thread.job? := by
  obtain ⟨hnum, hidle, htotal, hfew, hnot, hbusy⟩ := h
  have hcount := count_le s.threads
  let added : CThreadPool := { s with job := Function.update s.job job newJob, m_jobs := s.m_jobs ++ [job] }
  have hadd : s.addJob job k = if s.m_num_idle > 0 then added.notifyOne k
      else if s.m_num_threads ≥ MAX_TOTAL_THREADS then added
      else { added with m_num_threads := s.m_num_threads + 1, threads := s.threads ++ [.starting] } := rfl
  rw [hadd]
  by_cases hsome : s.m_num_idle > 0
  · rcases notifyOne_cases added k with ⟨heq, hnone⟩ | ⟨pre, post, hsplit, heq⟩
    · -- all idle workers are notified
      have hnone : s.threads.count .waiting = 0 := hnone
      refine ⟨s.threads, s.m_num_threads, (if_pos hsome).trans heq,
        ⟨hnum, hidle, htotal, hfew, fun hwait => ?_, fun _ => ?_⟩, rfl⟩
      · exact absurd hnone hwait
      · omega
    · have hsplit : s.threads = pre ++ .waiting :: post := hsplit
      rw [hsplit, count_place, count_place, if_pos rfl, if_neg (by decide)] at hidle hfew hnot hcount
      rw [hsplit, length_place] at hnum htotal
      rw [length_place] at hcount
      refine ⟨pre ++ .notified :: post, s.m_num_threads, (if_pos hsome).trans heq, ⟨?_, ?_, ?_, ?_, ?_, ?_⟩, ?_⟩
      · rw [length_place, hnum]
      · rw [count_place, count_place, if_neg (by decide), if_pos rfl]
        omega
      · rw [length_place]
        exact htotal
      · rw [count_place, count_place, if_neg (by decide), if_pos rfl]
        omega
      · rw [count_place, count_place, if_neg (by decide), if_pos rfl]
        intro hwait
        have hle := hnot (by omega)
        omega
      · intro _
        rw [length_place, count_place, if_neg (by decide)]
        omega
      · rw [hsplit, filterMap_append, filterMap_append]
        rfl
  · by_cases hfull : s.m_num_threads ≥ MAX_TOTAL_THREADS
    · refine ⟨s.threads, s.m_num_threads, (if_neg hsome).trans (if_pos hfull),
        ⟨hnum, hidle, htotal, hfew, fun hwait => ?_, fun _ => ?_⟩, rfl⟩
      · omega
      · simp only [MAX_TOTAL_THREADS] at hfull
        omega
    · have hless : s.m_num_threads < 20 := by simpa [MAX_TOTAL_THREADS] using hfull
      refine ⟨s.threads ++ [.starting], s.m_num_threads + 1, (if_neg hsome).trans (if_neg hfull),
        ⟨?_, ?_, ?_, ?_, ?_, ?_⟩, ?_⟩
      · rw [length_append, length_singleton, hnum]
      · simpa using hidle
      · rw [length_append, length_singleton]
        omega
      · simpa using hfew
      · intro hwait
        simp only [count_append, count_singleton] at hwait
        simp at hwait
        omega
      · intro _
        rw [length_append, length_singleton, count_append]
        simp
        omega
      · simp [Thread.job?]

end CThreadPool

end ZNC.ThreadPool
