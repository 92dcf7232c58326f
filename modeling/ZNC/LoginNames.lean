/-
Names that a login line can carry: the validators of `src/User.cpp`, `src/IRCNetwork.cpp` and `src/Client.cpp` against
`CClient::ParseUser` and `CClient::ParsePass`.

A login line is `user[@identifier][/network]`, after PASS with `:password`. It is cut at the last slash, at the last `@` and at
the first colon, so a name comes back only if it does not take the place of a separator. A user name may contain `@`.

Results:
- `parseUser_iff`, `parsePass_iff`: which parts come back;
- `login_names_iff`: both, for valid names.
-/
import ZNC.ClientLogin

namespace ZNC.Login

open CString List

/-! ## Valid names -/

/-- `CUser::IsValidUserName`, on the text up to a NUL -/
def isValidUserName (sUsername : CString) : Bool :=
  sUsername ≠ [] && isalpha (deref sUsername.cStr 0) &&
    sUsername.cStr.all fun c => c = ch '@' || c = ch '.' || c = ch '-' || c = ch '_' || isalnum c

/-- `CIRCNetwork::IsValidNetwork`, on the text up to a NUL -/
def isValidNetwork (sNetwork : CString) : Bool :=
  sNetwork ≠ [] && sNetwork.cStr.all fun c => c = ch '_' || c = ch '-' || isalnum c

/-- a user name that the validator accepts -/
structure UserName where
  sName : CString
  valid : isValidUserName sName = true

/-- a client identifier that the validator accepts -/
structure Identifier where
  sName : CString
  valid : CClient.isValidIdentifier sName = true

/-- a network name that the validator accepts -/
structure NetworkName where
  sName : CString
  valid : isValidNetwork sName = true

/-- a part of the line, behind its separator -/
def part (c : Char) : Option CString → CString
  | none => []
  | some sName => ch c :: sName

/-- `user[@identifier][/network]` -/
def userLine (sUser : CString) (sId sNet : Option CString) : CString := sUser ++ part '@' sId ++ part '/' sNet

/-! ## The last separator -/

namespace CClient

theorem cutLast_of_not_mem {c : UInt8} {s : CString} (h : c ∉ s) : cutLast c s = none := if_neg h

theorem cutLast_append {c : UInt8} {b : CString} (h : c ∉ b) (a : CString) : cutLast c (a ++ c :: b) = some (a, b) := by
  have hmem : c ∈ a ++ c :: b := mem_append_right _ mem_cons_self
  have hne : ∀ x ∈ b.reverse, decide (x ≠ c) = true := fun x hx =>
    decide_eq_true fun heq => h (heq ▸ mem_reverse.1 hx)
  have hrev : (a ++ c :: b).reverse = b.reverse ++ (c :: a.reverse) := by simp
  have hfront : (a ++ c :: b).reverse.dropWhile (fun x => decide (x ≠ c)) = c :: a.reverse := by
    rw [hrev, dropWhile_append_of_pos hne]
    simp
  have hback : (a ++ c :: b).reverse.takeWhile (fun x => decide (x ≠ c)) = b.reverse := by
    rw [hrev, takeWhile_append_of_pos hne]
    simp
  rw [cutLast, if_pos hmem, hfront, hback]
  simp

theorem cutLast_eq_some {c : UInt8} {s a b : CString} (h : cutLast c s = some (a, b)) : s = a ++ c :: b ∧ c ∉ b := by
  by_cases hs : c ∈ s
  · obtain ⟨back, front, hrev, hback⟩ := eq_append_cons_of_mem (mem_reverse.2 hs)
    have hsplit : s = front.reverse ++ c :: back.reverse := by
      rw [← reverse_reverse s, hrev]
      simp
    have hnot : c ∉ back.reverse := fun hmem => hback (mem_reverse.1 hmem)
    rw [hsplit, cutLast_append hnot, Option.some.injEq, Prod.mk.injEq] at h
    obtain ⟨rfl, rfl⟩ := h
    exact ⟨hsplit, hnot⟩
  · rw [cutLast_of_not_mem hs] at h
    cases h

theorem cutLast_cases (c : UInt8) (s : CString) : (c ∉ s ∧ cutLast c s = none) ∨ ∃ a b, cutLast c s = some (a, b) := by
  by_cases hs : c ∈ s
  · right
    rw [cutLast, if_pos hs]
    exact ⟨_, _, rfl⟩
  · exact .inl ⟨hs, cutLast_of_not_mem hs⟩

/-! ## `ParseIdentifier` -/

variable (s : CClient) (sUser : CString)

theorem parseIdentifier_cases (sAuthLine : CString) :
    s.parseIdentifier sAuthLine = { s with sUser := sAuthLine } ∨
      ∃ sName sId, sAuthLine = sName ++ ch '@' :: sId ∧ ch '@' ∉ sId ∧
        s.parseIdentifier sAuthLine = { s with sUser := sName, sIdentifier := sId } := by
  unfold parseIdentifier
  rcases cutLast_cases (ch '@') sAuthLine with ⟨-, hnone⟩ | ⟨sName, sId, hcut⟩
  · rw [hnone]
    exact .inl rfl
  · obtain ⟨hsplit, hat⟩ := cutLast_eq_some hcut
    rw [hcut]
    by_cases hvalid : isValidIdentifier sId = true
    · exact .inr ⟨sName, sId, hsplit, hat, by simp only [if_pos hvalid]⟩
    · exact .inl (by simp only [if_neg hvalid])

/-- an identifier holds no `@`, and if there is none the user name does not end in one -/
def IdentifierOk (sUser : CString) : Option CString → Prop
  | some sId => ch '@' ∉ sId
  | none => ∀ sName sId, cutLast (ch '@') sUser = some (sName, sId) → isValidIdentifier sId = false

theorem parseIdentifier_iff (sId : Option CString) (hvalid : ∀ i ∈ sId, isValidIdentifier i = true) :
    s.parseIdentifier (sUser ++ part '@' sId) = { s with sUser := sUser, sIdentifier := sId.getD s.sIdentifier } ↔
      IdentifierOk sUser sId := by
  cases sId with
  | some i =>
    constructor
    · intro h
      rcases parseIdentifier_cases s (sUser ++ part '@' (some i)) with hwhole | ⟨sName, sId, hsplit, hat, hcut⟩
      · have huser : sUser ++ part '@' (some i) = sUser := congrArg CClient.sUser (hwhole.symm.trans h)
        simp [part] at huser
      · have huser : sName = sUser := congrArg CClient.sUser (hcut.symm.trans h)
        subst huser
        obtain ⟨-, rfl⟩ := List.cons.inj (append_cancel_left hsplit)
        exact hat
    · intro hat
      rw [part, parseIdentifier, cutLast_append hat]
      simp only [if_pos (hvalid i rfl), Option.getD_some]
  | none =>
    rw [part, append_nil, Option.getD_none]
    constructor
    · intro h sName sId hcut
      by_contra hid
      rw [parseIdentifier, hcut] at h
      simp only [if_pos (Bool.eq_true_of_not_eq_false hid)] at h
      have huser : sName = sUser := congrArg CClient.sUser h
      have hlen := congrArg List.length (cutLast_eq_some hcut).1
      rw [huser] at hlen
      simp at hlen
    · intro hok
      rcases cutLast_cases (ch '@') sUser with ⟨-, hnone⟩ | ⟨sName, sId, hcut⟩
      · rw [parseIdentifier, hnone]
      · rw [parseIdentifier, hcut]
        simp only [hok sName sId hcut, Bool.false_eq_true, if_false]

/-! ## `ParseUser` -/

/-- the client that knows exactly these parts -/
def named (s : CClient) (sUser : CString) (sId sNet : Option CString) : CClient :=
  { s with sUser := sUser, sIdentifier := sId.getD s.sIdentifier, sNetwork := sNet.getD s.sNetwork }

/-- a network holds no slash, and if there is none neither do the other names -/
def NetworkOk (sUser : CString) (sId : Option CString) : Option CString → Prop
  | some sNet => ch '/' ∉ sNet
  | none => ch '/' ∉ sUser ++ part '@' sId

theorem parseUser_iff (sId sNet : Option CString) (hvalid : ∀ i ∈ sId, isValidIdentifier i = true) :
    s.parseUser (userLine sUser sId sNet) = s.named sUser sId sNet ↔
      NetworkOk sUser sId sNet ∧ IdentifierOk sUser sId := by
  cases sNet with
  | some n =>
    by_cases hn : ch '/' ∈ n
    · -- the network is cut inside
      refine iff_of_false (fun h => ?_) fun h => h.1 hn
      rcases cutLast_cases (ch '/') (userLine sUser sId (some n)) with ⟨hno, -⟩ | ⟨sName, sNet, hcut⟩
      · exact hno (mem_append_right _ (mem_cons_of_mem _ hn))
      · obtain ⟨sUser', sId', heq⟩ := parseIdentifier_eq { s with sNetwork := sNet } sName
        rw [parseUser, hcut] at h
        have hnet : sNet = n := congrArg CClient.sNetwork (heq.symm.trans h)
        exact (cutLast_eq_some hcut).2 (hnet ▸ hn)
    · rw [userLine, part, parseUser, cutLast_append hn]
      exact Iff.trans (parseIdentifier_iff { s with sNetwork := n } sUser sId hvalid) (and_iff_right hn).symm
  | none =>
    by_cases hn : ch '/' ∈ sUser ++ part '@' sId
    · -- one of the other names is cut
      refine iff_of_false (fun h => ?_) fun h => h.1 hn
      rw [userLine, part, append_nil, parseUser] at h
      rcases cutLast_cases (ch '/') (sUser ++ part '@' sId) with ⟨hno, -⟩ | ⟨sName, sNet, hcut⟩
      · exact hno hn
      · obtain ⟨hsplit, -⟩ := cutLast_eq_some hcut
        rw [hcut] at h
        rcases parseIdentifier_cases { s with sNetwork := sNet } sName with hwhole | ⟨sUser', sId', hname, -, hid⟩
        · have huser : sName = sUser := congrArg CClient.sUser (hwhole.symm.trans h)
          rw [huser] at hsplit
          cases sId with
          | none => exact absurd (append_cancel_left hsplit) (cons_ne_nil _ _).symm
          | some i =>
            have hsep : ch '@' = ch '/' := (List.cons.inj (append_cancel_left hsplit)).1
            exact absurd hsep (by decide)
        · have huser : sUser' = sUser := congrArg CClient.sUser (hid.symm.trans h)
          have hident : sId' = sId.getD s.sIdentifier := congrArg CClient.sIdentifier (hid.symm.trans h)
          rw [hname, huser] at hsplit
          have hlen := congrArg List.length hsplit
          cases sId with
          | none => simp [part] at hlen
          | some i =>
            rw [hident] at hlen
            simp [part] at hlen
    · rw [userLine, part, append_nil, parseUser, cutLast_of_not_mem hn]
      exact Iff.trans (parseIdentifier_iff s sUser sId hvalid) (and_iff_right hn).symm

/-! ## `ParsePass` -/

theorem parsePass_iff (sId sNet : Option CString) (sPass : CString) (hvalid : ∀ i ∈ sId, isValidIdentifier i = true) :
    s.parsePass (userLine sUser sId sNet ++ ch ':' :: sPass) = { s with sPass := sPass }.named sUser sId sNet ↔
      ch ':' ∉ userLine sUser sId sNet ∧ NetworkOk sUser sId sNet ∧ IdentifierOk sUser sId := by
  have hmem : ch ':' ∈ userLine sUser sId sNet ++ ch ':' :: sPass := mem_append_right _ mem_cons_self
  rw [parsePass, if_pos hmem]
  by_cases hcolon : ch ':' ∈ userLine sUser sId sNet
  · -- the password begins too early
    refine iff_of_false (fun h => ?_) fun h => h.1 hcolon
    obtain ⟨front, back, hsplit, hfront⟩ := eq_append_cons_of_mem hcolon
    have hne : ∀ x ∈ front, decide (x ≠ ch ':') = true := fun x hx => decide_eq_true fun heq => hfront (heq ▸ hx)
    have hpass : _ = sPass := congrArg CClient.sPass h
    obtain ⟨sUser', sNet', sId', heq⟩ := parseUser_eq { s with
      sPass := ((userLine sUser sId sNet ++ ch ':' :: sPass).dropWhile (· ≠ ch ':')).drop 1 }
      ((userLine sUser sId sNet ++ ch ':' :: sPass).takeWhile (· ≠ ch ':'))
    rw [heq] at hpass
    have hlen : (back ++ ch ':' :: sPass).length = sPass.length := by
      rw [hsplit, append_assoc, dropWhile_append_of_pos hne] at hpass
      exact congrArg List.length (by simpa using hpass)
    simp at hlen
    omega
  · have hne : ∀ x ∈ userLine sUser sId sNet, decide (x ≠ ch ':') = true := fun x hx =>
      decide_eq_true fun heq => hcolon (heq ▸ hx)
    rw [takeWhile_append_of_pos hne, dropWhile_append_of_pos hne]
    simp only [ne_eq, not_true_eq_false, decide_false, Bool.false_eq_true, not_false_eq_true, takeWhile_cons_of_neg,
      dropWhile_cons_of_neg, append_nil, drop_succ_cons, drop_zero]
    exact Iff.trans (parseUser_iff { s with sPass := sPass } sUser sId sNet hvalid) (and_iff_right hcolon).symm

/-- the parts come back from both kinds of lines -/
def Recovers (s : CClient) (sUser : CString) (sId sNet : Option CString) (sPass : CString) : Prop :=
  s.parsePass (userLine sUser sId sNet ++ ch ':' :: sPass) = { s with sPass := sPass }.named sUser sId sNet ∧
    s.parseUser (userLine sUser sId sNet) = s.named sUser sId sNet

theorem recovers_iff (sId sNet : Option CString) (sPass : CString) (hvalid : ∀ i ∈ sId, isValidIdentifier i = true) :
    s.Recovers sUser sId sNet sPass ↔
      ch ':' ∉ userLine sUser sId sNet ∧ NetworkOk sUser sId sNet ∧ IdentifierOk sUser sId := by
  rw [Recovers, parsePass_iff s sUser sId sNet sPass hvalid, parseUser_iff s sUser sId sNet hvalid]
  exact and_iff_left_of_imp And.right

end CClient

/-! ## Valid names come back -/

/-- what a user, a client and a network are called -/
structure Names where
  user : UserName
  identifier : Option Identifier
  network : Option NetworkName

namespace Names

def sId (n : Names) : Option CString := n.identifier.map Identifier.sName

def sNet (n : Names) : Option CString := n.network.map NetworkName.sName

theorem sId_valid (n : Names) : ∀ i ∈ n.sId, CClient.isValidIdentifier i = true := by
  intro i hi
  obtain ⟨i', -, rfl⟩ := Option.map_eq_some_iff.1 hi
  exact i'.valid

end Names

/-- **Which valid names a login line can carry.** A part that is not given stays as the client had it. -/
theorem login_names_iff (s : CClient) (n : Names) (sPass : CString) :
    s.Recovers n.user.sName n.sId n.sNet sPass ↔
      ch ':' ∉ userLine n.user.sName n.sId n.sNet ∧ CClient.NetworkOk n.user.sName n.sId n.sNet ∧
        CClient.IdentifierOk n.user.sName n.sId :=
  CClient.recovers_iff s n.user.sName n.sId n.sNet sPass n.sId_valid

/-- a user whose name ends like an identifier, alone -/
def bobAtHome : Names := ⟨⟨lit "bob@home", by decide⟩, none, none⟩

theorem login_names_fail :
    ¬(init [] (lit "127.0.0.1")).Recovers bobAtHome.user.sName bobAtHome.sId bobAtHome.sNet (lit "secret") := by
  intro h
  have huser : lit "bob" = lit "bob@home" := congrArg CClient.sUser h.2
  exact absurd huser (by decide)

theorem UserName.chars (u : UserName) (h0 : (0 : UInt8) ∉ u.sName) :
    ∀ c ∈ u.sName, c = ch '@' ∨ c = ch '.' ∨ c = ch '-' ∨ c = ch '_' ∨ isalnum c = true := by
  have hvalid := u.valid
  simp only [isValidUserName, Bool.and_eq_true, cStr_eq_self h0, all_eq_true, Bool.or_eq_true, decide_eq_true_eq,
    or_assoc] at hvalid
  exact hvalid.2

end ZNC.Login
