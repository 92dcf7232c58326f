/-
A double-ended queue told by its journal. Every entry of the journal puts something in at one end, takes something out at the
front, or does nothing to the queue; the newest entry comes first.

`replay` is what the queue holds after the journal; it fails if something was taken that did not stand at the front. So a journal
that can be replayed is one of a queue that was served in order.

- `replay_perm`: what was put in has been taken out or is still there.
-/
import Mathlib.Data.List.Basic

namespace QueueLog

open Option

open scoped List

variable {ε ι : Type} [DecidableEq ι]

/-- what an entry does to the queue -/
inductive Op (ι : Type) where
  | back (i : ι)
  | front (i : ι)
  | take (i : ι)
  | idle

/-- one step of the queue -/
def Op.apply (q : List ι) : Op ι → Option (List ι)
  | .back i => some (q ++ [i])
  | .front i => some (i :: q)
  | .take i => if q.head? = some i then some q.tail else none
  | .idle => some q

/-- what the operation puts in -/
def Op.added : Op ι → List ι
  | .back i => [i]
  | .front i => [i]
  | _ => []

/-- what it takes out -/
def Op.taken : Op ι → List ι
  | .take i => [i]
  | _ => []

variable (op : ε → Op ι)

/-- the queue after a journal -/
def replay : List ε → Option (List ι)
  | [] => some []
  | e :: log => (replay log).bind fun q => (op e).apply q

/-- everything that was put in, newest first -/
def added (log : List ε) : List ι := log.flatMap fun e => (op e).added

/-- everything that was taken out, newest first -/
def taken (log : List ε) : List ι := log.flatMap fun e => (op e).taken

variable {op}

variable {log : List ε} {q : List ι}

theorem replay_cons (h : replay op log = some q) (e : ε) :
    replay op (e :: log) = (op e).apply q := by rw [replay, h, bind_some]

theorem replay_back (h : replay op log = some q) {e : ε} {i : ι} (he : op e = .back i) :
    replay op (e :: log) = some (q ++ [i]) := by rw [replay_cons h, he]; rfl

theorem replay_front (h : replay op log = some q) {e : ε} {i : ι} (he : op e = .front i) :
    replay op (e :: log) = some (i :: q) := by rw [replay_cons h, he]; rfl

theorem replay_idle (h : replay op log = some q) {e : ε} (he : op e = .idle) :
    replay op (e :: log) = some q := by rw [replay_cons h, he]; rfl

theorem replay_take {i : ι} (h : replay op log = some (i :: q)) {e : ε} (he : op e = .take i) :
    replay op (e :: log) = some q := by
  rw [replay_cons h, he, Op.apply, if_pos List.head?_cons, List.tail_cons]

theorem Op.apply_perm {o : Op ι} {q' : List ι} (h : o.apply q = some q') : o.taken ++ q' ~ o.added ++ q := by
  cases o with
  | back i =>
    have hend : q ++ [i] ~ [i] ++ q := List.perm_append_comm
    rw [← some_inj.1 h]
    exact hend
  | front i =>
    rw [← some_inj.1 h]
    exact List.Perm.refl _
  | take i =>
    rw [Op.apply] at h
    split_ifs at h with hhead
    cases q with
    | nil => cases hhead
    | cons j q =>
      rw [List.head?_cons, some_inj] at hhead
      rw [← some_inj.1 h, hhead]
      exact List.Perm.refl _
  | idle =>
    rw [← some_inj.1 h]
    exact List.Perm.refl _

theorem replay_perm (h : replay op log = some q) : taken op log ++ q ~ added op log := by
  induction log generalizing q with
  | nil =>
    rw [← some_inj.1 h]
    exact List.Perm.refl _
  | cons e log ih =>
    rw [replay, bind_eq_some_iff] at h
    obtain ⟨q', hq', happly⟩ := h
    have hstep := Op.apply_perm happly
    rw [taken, added, List.flatMap_cons, List.flatMap_cons]
    calc (op e).taken ++ taken op log ++ q ~ taken op log ++ ((op e).taken ++ q) := by
          rw [← List.append_assoc]
          exact List.perm_append_comm.append_right q
      _ ~ taken op log ++ ((op e).added ++ q') := hstep.append_left _
      _ ~ (op e).added ++ (taken op log ++ q') := by
          rw [← List.append_assoc, ← List.append_assoc]
          exact List.perm_append_comm.append_right q'
      _ ~ (op e).added ++ added op log := (ih hq').append_left _

end QueueLog
