/-
A nick with its user and host: `CNick` of `src/Nick.cpp`.

`CNick::Parse` reads `nick!user@host` into an object that may already hold something: parts that the text does not have
keep what they held. The channel permissions and the network pointer take no part in it and are left out.

Results:
- `parse_getHostMask`: a mask with nick, user and host, or with the nick alone, is read back into a nick that holds
  nothing else;
- `parse_congr_iff`: two nicks agree after `Parse` exactly when they agreed on the parts that the text leaves alone.
-/
import ZNC.Lib.Words
import ZNC.CString

namespace ZNC

open Words

@[ext] structure CNick where
  sNick : CString
  sIdent : CString
  sHost : CString
deriving DecidableEq, Repr

namespace CNick

/-- `CNick()` -/
def empty : CNick := ⟨[], [], []⟩

/-- `substr(sNickMask[0] == ':')` -/
def chompColon (s : CString) : CString := if s.head? = some (ch ':') then s.drop 1 else s

def parse (n : CNick) (sNickMask : CString) : CNick :=
  if sNickMask = [] then n
  else
    match cut (ch '!') sNickMask with
    | none => { n with sNick := chompColon sNickMask }
    | some (sNick, sHost) =>
      match cut (ch '@') sHost with
      -- without '@' the user goes where the host belongs
      | none => { n with sNick := chompColon sNick, sHost := sHost }
      | some (sIdent, sHost) => ⟨chompColon sNick, sIdent, sHost⟩

def getHostMask (n : CNick) : CString :=
  n.sNick ++ (if n.sIdent = [] then [] else ch '!' :: n.sIdent) ++ (if n.sHost = [] then [] else ch '@' :: n.sHost)

def getNickMask (n : CNick) : CString :=
  n.sNick ++ if n.sHost = [] then [] else (if n.sIdent = [] then [] else ch '!' :: n.sIdent) ++ ch '@' :: n.sHost

def nickEquals (n : CNick) (nickname : CString) : Bool := n.sNick.equals nickname

/-! ## Reading a mask -/

theorem chompColon_eq_self {s : CString} (h : s.head? ≠ some (ch ':')) : chompColon s = s := if_neg h

variable (n : CNick)

theorem parse_nick {s : CString} (hs : s ≠ []) (h : ch '!' ∉ s) :
    n.parse s = { n with sNick := chompColon s } := by
  rw [parse, if_neg hs, cut_of_not_mem h]

theorem parse_user {s r : CString} (h : ch '!' ∉ s) (hr : ch '@' ∉ r) :
    n.parse (s ++ ch '!' :: r) = { n with sNick := chompColon s, sHost := r } := by
  simp only [parse, cut_append h, cut_of_not_mem hr]
  rw [if_neg (by simp)]

theorem parse_full {s u : CString} (h : ch '!' ∉ s) (hu : ch '@' ∉ u) (r : CString) :
    n.parse (s ++ ch '!' :: (u ++ ch '@' :: r)) = ⟨chompColon s, u, r⟩ := by
  simp only [parse, cut_append h, cut_append hu]
  rw [if_neg (by simp)]

/-- a nick alone, or with both user and host -/
structure Complete (n : CNick) : Prop where
  nick : n.sNick ≠ []
  noBang : ch '!' ∉ n.sNick
  both : (n.sIdent = [] ∧ n.sHost = []) ∨ (n.sIdent ≠ [] ∧ n.sHost ≠ [] ∧ ch '@' ∉ n.sIdent)

theorem getHostMask_ne_nil {n : CNick} (h : n.sNick ≠ []) : n.getHostMask ≠ [] := by
  intro h0
  rw [getHostMask, List.append_assoc] at h0
  exact h (List.append_eq_nil_iff.1 h0).1

theorem parse_getHostMask (h : n.Complete) (hcolon : n.sNick.head? ≠ some (ch ':')) :
    empty.parse n.getHostMask = n := by
  rcases h.both with ⟨hi, hh⟩ | ⟨hi, hh, hat⟩
  · have hmask : n.getHostMask = n.sNick := by simp [getHostMask, hi, hh]
    rw [hmask, parse_nick _ h.nick h.noBang, chompColon_eq_self hcolon]
    exact CNick.ext rfl hi.symm hh.symm
  · have hmask : n.getHostMask = n.sNick ++ ch '!' :: (n.sIdent ++ ch '@' :: n.sHost) := by
      simp [getHostMask, hi, hh]
    rw [hmask, parse_full _ h.noBang hat, chompColon_eq_self hcolon]

/-! ## What a mask leaves alone -/

/-- the two nicks agree on the parts that `Parse(sNickMask)` does not set -/
def AgreeBeyond (sNickMask : CString) (n1 n2 : CNick) : Prop :=
  if sNickMask = [] then n1 = n2
  else
    match cut (ch '!') sNickMask with
    | none => n1.sIdent = n2.sIdent ∧ n1.sHost = n2.sHost
    | some (_, r) => ch '@' ∈ r ∨ n1.sIdent = n2.sIdent

instance (sNickMask : CString) (n1 n2 : CNick) : Decidable (AgreeBeyond sNickMask n1 n2) :=
  if h : sNickMask = [] then decidable_of_iff (n1 = n2) (by rw [AgreeBeyond, if_pos h])
  else
    match hc : cut (ch '!') sNickMask with
    | none => decidable_of_iff (n1.sIdent = n2.sIdent ∧ n1.sHost = n2.sHost) (by simp only [AgreeBeyond, if_neg h, hc])
    | some (_, r) => decidable_of_iff (ch '@' ∈ r ∨ n1.sIdent = n2.sIdent) (by simp only [AgreeBeyond, if_neg h, hc])

theorem parse_congr_iff (sNickMask : CString) (n1 n2 : CNick) :
    n1.parse sNickMask = n2.parse sNickMask ↔ AgreeBeyond sNickMask n1 n2 := by
  unfold parse AgreeBeyond
  split_ifs with h
  · exact Iff.rfl
  · cases hc : cut (ch '!') sNickMask with
    | none => simp [CNick.ext_iff]
    | some p =>
      obtain ⟨s, r⟩ := p
      simp only
      cases ha : cut (ch '@') r with
      | none =>
        have hr : ch '@' ∉ r := cut_eq_none ha
        simp [CNick.ext_iff, hr]
      | some q =>
        obtain ⟨hr, -⟩ := cut_eq_some ha
        have hmem : ch '@' ∈ r := by rw [hr]; simp
        simp [hmem]

end CNick

end ZNC
