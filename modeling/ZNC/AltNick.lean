/-
The search for a free nick: `CIRCSock::SendAltNick` of `src/IRCSock.cpp`.

While ZNC is not registered, the server's 432, 433 and 437 replies name a bad nick and `SendAltNick` tries the next one:
the alternate nick, then the first bytes of the configured nick followed by '-', '|', '^', 'a' and on to 'z'. The next nick
is computed from the one sent last, by case-insensitive comparisons. The server of this module rejects every nick, naming it
in full.

Model: `rejectStep` is one rejection on the state (nick sent last, longest nick); a search is a walk of it from the
configured nick. Behind the comparisons stands a walk of single bytes: `succByte hit c` is the suffix after `c` when `hit`
is the suffix that the alternate nick looks like.

Results:
- `alt_nick_search_iff`: a search tries no nick twice and ends, exactly if the alternate nick does not look like the
  suffixes '^' and 'z' and the configured nick does not look like one of the suffixed nicks on the way;
- `alt_nick_search_cycles`: the nick `nicknames` is a suffixed nick itself, and its search goes round for ever.
-/
import Mathlib.Data.FinEnum
import ZNC.Lib.Walk
import ZNC.CString

namespace ZNC.AltNick

open CString Walk Relation List

/-! ## Model -/

/-- `m_Nick.GetNick()` and `m_uMaxNickLen` -/
structure NickState where
  sLastNick : CString
  uMaxNickLen : UInt32
deriving DecidableEq, Repr

/-- what a call comes to: a further `NICK`, or a notice to the user and `Quit()` -/
inductive Reply where
  | nick (st : NickState)
  | quit (sNotice : CString)
deriving DecidableEq

def sendAltNick (sConfNick sAltNick : CString) (st : NickState) (sBadNick : CString) : Reply :=
  let sLastNick := st.sLastNick
  let uMax := if sBadNick.length < sLastNick.length then UInt32.ofNat sBadNick.length else st.uMaxNickLen
  let sNewNick := sConfNick.left (uMax - 1).toNat
  if sLastNick.equals sConfNick then
    if sAltNick ≠ [] && !sConfNick.equals sAltNick then .nick ⟨sAltNick, uMax⟩ else .nick ⟨sNewNick ++ lit "-", uMax⟩
  else if sLastNick.equals sAltNick && !sAltNick.equals (sNewNick ++ lit "-") then .nick ⟨sNewNick ++ lit "-", uMax⟩
  else if sLastNick.equals (sNewNick ++ lit "-") && !sAltNick.equals (sNewNick ++ lit "|") then
    .nick ⟨sNewNick ++ lit "|", uMax⟩
  else if sLastNick.equals (sNewNick ++ lit "|") && !sAltNick.equals (sNewNick ++ lit "^") then
    .nick ⟨sNewNick ++ lit "^", uMax⟩
  else if sLastNick.equals (sNewNick ++ lit "^") && !sAltNick.equals (sNewNick ++ lit "a") then
    .nick ⟨sNewNick ++ lit "a", uMax⟩
  else
    match sBadNick.getLast? with
    | none => .quit (lit "No free nick available")
    | some cLetter =>
      if cLetter = ch 'z' then .quit (lit "No free nick found")
      else if (sNewNick ++ [cLetter + 1]).equals sAltNick then .nick ⟨sNewNick ++ [cLetter + 1 + 1], uMax⟩
      else .nick ⟨sNewNick ++ [cLetter + 1], uMax⟩

/-- the server rejects the nick sent last, naming it in full; nothing follows a `Quit()` -/
def rejectStep (sConfNick sAltNick : CString) (st : NickState) : Option NickState :=
  match sendAltNick sConfNick sAltNick st st.sLastNick with
  | .nick st' => some st'
  | .quit _ => none

/-- the state when the configured nick has been sent -/
def registering (sConfNick : CString) (uMaxNickLen : UInt32) : NickState := ⟨sConfNick, uMaxNickLen⟩

/-- the nick tried after `n + 1` rejections of a search -/
def tried (sConfNick sAltNick : CString) (uMaxNickLen : UInt32) (n : ℕ) : Option CString :=
  (visit (rejectStep sConfNick sAltNick) (registering sConfNick uMaxNickLen) (n + 1)).map (·.sLastNick)

/-! ## The walk of suffixes -/

/-- the suffix after `c`, when the alternate nick looks like the suffix `hit` -/
def succByte (hit : Option UInt8) (c : UInt8) : Option UInt8 :=
  if hit = some (tolower c) ∧ hit ≠ some (ch '-') then some (ch '-')
  else if c = ch '-' ∧ hit ≠ some (ch '|') then some (ch '|')
  else if c = ch '|' ∧ hit ≠ some (ch '^') then some (ch '^')
  else if c = ch '^' ∧ hit ≠ some (ch 'a') then some (ch 'a')
  else if c = ch 'z' then none
  else some (if hit = some (tolower (c + 1)) then c + 1 + 1 else c + 1)

/-- the bytes from `c` on, `n` of them -/
def bytesFrom (c : UInt8) (n : ℕ) : List UInt8 := (List.range' c.toNat n).map UInt8.ofNat

/-- the suffixes of a search whose alternate nick looks like the suffixes that `alt` picks: it walks from '-' to '^' byte by
byte where '|' is taken, over the two bytes behind '^' where 'a' is, and passes over a letter that is taken -/
def suffixes (alt : UInt8 → Bool) : List UInt8 :=
  if alt (ch '|') then bytesFrom (ch '-') 50 ++ bytesFrom (ch 'a') 26
  else if alt (ch 'a') then [ch '-', ch '|', ch '^', 0x5F, 0x60] ++ bytesFrom (ch 'b') 25
  else [ch '-', ch '|', ch '^'] ++ (bytesFrom (ch 'a') 26).filter fun c => !alt c

/-- whether the alternate nick looks like the suffix `c` behind `sNick` -/
def altIs (sAltNick sNick : CString) (c : UInt8) : Bool := sAltNick.equals (sNick ++ [c])

/-- the search gets to its end -/
structure FreeSearch (sConfNick sAltNick sNick : CString) : Prop where
  notCaret : altIs sAltNick sNick (ch '^') = false
  notZ : altIs sAltNick sNick (ch 'z') = false
  confFree : ∀ c ∈ suffixes (altIs sAltNick sNick), sConfNick.equals (sNick ++ [c]) = false

/-- `succByte` runs along the suffixes and ends behind the last -/
def RunsAlong (hit : Option UInt8) : Prop :=
  (suffixes fun c => hit = some (tolower c)).IsChain (fun c d => succByte hit c = some d) ∧
    ∀ c ∈ (suffixes fun c => hit = some (tolower c)).getLast?, succByte hit c = none

instance (hit : Option UInt8) : Decidable (RunsAlong hit) := by unfold RunsAlong; infer_instance

theorem mem_bytesFrom {b c : UInt8} {n : ℕ} (h : b.toNat + n ≤ 256) :
    c ∈ bytesFrom b n ↔ b.toNat ≤ c.toNat ∧ c.toNat < b.toNat + n := by
  unfold bytesFrom
  rw [mem_map]
  constructor
  · intro hc
    obtain ⟨x, hx, rfl⟩ := hc
    rw [mem_range'_1] at hx
    rw [UInt8.toNat_ofNat', Nat.mod_eq_of_lt (by omega)]
    exact hx
  · intro hc
    exact ⟨c.toNat, mem_range'_1.2 hc, UInt8.ofNat_toNat⟩

theorem isChain_skip (gap s n : ℕ) :
    ((List.range' s n).filter (· ≠ gap)).IsChain (fun x y => y = if x + 1 = gap then x + 2 else x + 1) ∧
      ∀ y ∈ ((List.range' s n).filter (· ≠ gap)).head?, y = if s = gap then s + 1 else s := by
  induction n generalizing s with
  | zero => simp
  | succ n ih =>
    obtain ⟨hchain, hhead⟩ := ih (s + 1)
    rw [range'_succ]
    by_cases hs : s = gap
    · rw [filter_cons_of_neg (by simpa using hs), if_pos hs]
      refine ⟨hchain, fun y hy => ?_⟩
      rw [hhead y hy, if_neg (by omega)]
    · rw [filter_cons_of_pos (by simpa using hs), if_neg hs]
      refine ⟨isChain_cons.2 ⟨fun y hy => ?_, hchain⟩, fun y hy => ?_⟩
      · rw [hhead y hy]
      · simpa using hy.symm

/-- the code of the suffix that the alternate nick looks like, zero for none -/
def gap (hit : Option UInt8) : ℕ := hit.elim 0 UInt8.toNat

theorem hit_eq_iff {hit : Option UInt8} {x : ℕ} (h0 : 0 < x) (hx : x < 256) :
    hit = some (UInt8.ofNat x) ↔ x = gap hit := by
  cases hit with
  | none =>
    have : x ≠ gap none := h0.ne'
    simpa using this
  | some d =>
    have hd : gap (some d) = d.toNat := rfl
    rw [hd, Option.some_inj, ← UInt8.toNat_inj, UInt8.toNat_ofNat', Nat.mod_eq_of_lt hx]
    exact eq_comm

theorem tolower_ofNat {x : ℕ} (hx : 97 ≤ x ∧ x ≤ 122) : tolower (UInt8.ofNat x) = UInt8.ofNat x := by
  have hn : (UInt8.ofNat x).toNat = x := by rw [UInt8.toNat_ofNat', Nat.mod_eq_of_lt (by omega)]
  have hZ : (ch 'Z').toNat = 90 := rfl
  have hupper : ¬ isupper (UInt8.ofNat x) = true := by
    simp only [isupper, Bool.and_eq_true, decide_eq_true_eq, UInt8.le_iff_toNat_le, hn, hZ]
    omega
  rw [tolower, if_neg hupper]

theorem succByte_letter {hit : Option UInt8} {x : ℕ} (hx : 97 ≤ x ∧ x < 122) (hfree : x ≠ gap hit) :
    succByte hit (UInt8.ofNat x) = some (UInt8.ofNat (if x + 1 = gap hit then x + 2 else x + 1)) := by
  have hn : (UInt8.ofNat x).toNat = x := by rw [UInt8.toNat_ofNat', Nat.mod_eq_of_lt (by omega)]
  have hne : ∀ c : UInt8, c.toNat ≠ x → UInt8.ofNat x ≠ c := fun c hc h0 => hc (by rw [← h0, hn])
  have hsucc : UInt8.ofNat x + 1 = UInt8.ofNat (x + 1) := (UInt8.ofNat_add x 1).symm
  have hsucc2 : UInt8.ofNat (x + 1) + 1 = UInt8.ofNat (x + 2) := (UInt8.ofNat_add (x + 1) 1).symm
  have hstay : ¬ hit = some (tolower (UInt8.ofNat x)) := by
    rw [tolower_ofNat (by omega), hit_eq_iff (by omega) (by omega)]
    exact hfree
  have hnext : hit = some (tolower (UInt8.ofNat (x + 1))) ↔ x + 1 = gap hit := by
    rw [tolower_ofNat (by omega), hit_eq_iff (by omega) (by omega)]
  have hdash := hne (ch '-') (by change 45 ≠ x; omega)
  have hbar := hne (ch '|') (by change 124 ≠ x; omega)
  have hcaret := hne (ch '^') (by change 94 ≠ x; omega)
  have hz := hne (ch 'z') (by change 122 ≠ x; omega)
  rw [succByte, if_neg (fun h => hstay h.1), if_neg (fun h => hdash h.1), if_neg (fun h => hbar h.1),
    if_neg (fun h => hcaret h.1), if_neg hz, hsucc, hsucc2]
  by_cases h : x + 1 = gap hit
  · rw [if_pos (hnext.2 h), if_pos h]
  · rw [if_neg (mt hnext.1 h), if_neg h]

theorem runsAlong_bar : RunsAlong (some (ch '|')) := by decide +kernel

theorem runsAlong_a : RunsAlong (some (ch 'a')) := by decide +kernel

theorem suffixes_letters {hit : Option UInt8} (hbar : hit ≠ some (ch '|')) (ha : hit ≠ some (ch 'a')) :
    (suffixes fun c => hit = some (tolower c)) =
      ch '-' :: ch '|' :: ch '^' :: ((List.range' 97 26).filter (· ≠ gap hit)).map UInt8.ofNat := by
  have hlow : tolower (ch '|') = ch '|' ∧ tolower (ch 'a') = ch 'a' := ⟨rfl, rfl⟩
  have hletters : (bytesFrom (ch 'a') 26).filter (fun c => !decide (hit = some (tolower c))) =
      ((List.range' 97 26).filter (· ≠ gap hit)).map UInt8.ofNat := by
    have hfrom : bytesFrom (ch 'a') 26 = (List.range' 97 26).map UInt8.ofNat := rfl
    rw [hfrom, filter_map]
    refine congrArg _ (filter_congr fun x hx => ?_)
    rw [mem_range'_1] at hx
    rw [Function.comp_apply, tolower_ofNat (by omega), ← decide_not]
    exact decide_eq_decide.2 (not_congr (hit_eq_iff (by omega) (by omega)))
  rw [suffixes, hlow.1, hlow.2, decide_eq_false hbar, decide_eq_false ha, if_neg Bool.false_ne_true,
    if_neg Bool.false_ne_true, hletters]
  rfl

/-- **The suffixes are those that `succByte` walks over**, whatever the alternate nick looks like. -/
theorem runsAlong (hit : Option UInt8) (hcaret : hit ≠ some (ch '^')) (hz : hit ≠ some (ch 'z')) : RunsAlong hit := by
  by_cases hbar : hit = some (ch '|')
  · rw [hbar]
    exact runsAlong_bar
  by_cases ha : hit = some (ch 'a')
  · rw [ha]
    exact runsAlong_a
  have hgapa : 97 ≠ gap hit := fun h => ha ((hit_eq_iff (x := 97) (by omega) (by omega)).2 h)
  have hgapz : 122 ≠ gap hit := fun h => hz ((hit_eq_iff (x := 122) (by omega) (by omega)).2 h)
  obtain ⟨hchain, hhead⟩ := isChain_skip (gap hit) 97 26
  rw [if_neg hgapa] at hhead
  have hends : ((List.range' 97 26).filter (· ≠ gap hit)).getLast? = some 122 := by
    have hsplit : List.range' 97 26 = List.range' 97 25 ++ [122] := rfl
    rw [hsplit, filter_append, filter_cons_of_pos (by simpa using hgapz), filter_nil, getLast?_concat]
  have hdash : succByte hit (ch '-') = some (ch '|') := by
    rw [succByte, if_neg (fun h => h.2 h.1), if_pos ⟨rfl, hbar⟩]
  have hstart : succByte hit (ch '|') = some (ch '^') := by
    rw [succByte, if_neg (fun h => hbar h.1), if_neg (fun h => absurd h.1 (by decide)), if_pos ⟨rfl, hcaret⟩]
  have hletter : succByte hit (ch '^') = some (ch 'a') := by
    rw [succByte, if_neg (fun h => hcaret h.1), if_neg (fun h => absurd h.1 (by decide)),
      if_neg (fun h => absurd h.1 (by decide)), if_pos ⟨rfl, ha⟩]
  have hend : succByte hit (ch 'z') = none := by
    rw [succByte, if_neg (fun h => hz h.1), if_neg (fun h => absurd h.1 (by decide)),
      if_neg (fun h => absurd h.1 (by decide)), if_neg (fun h => absurd h.1 (by decide)), if_pos rfl]
  unfold RunsAlong
  rw [suffixes_letters hbar ha]
  constructor
  · have hletters : (((List.range' 97 26).filter (· ≠ gap hit)).map UInt8.ofNat).IsChain fun c d =>
        succByte hit c = some d := by
      rw [isChain_map]
      refine hchain.imp_of_mem_imp fun x y hx hy hxy => ?_
      rw [mem_filter, mem_range'_1, decide_eq_true_eq] at hx hy
      rw [succByte_letter ⟨hx.1.1, by split_ifs at hxy <;> omega⟩ hx.2, hxy]
    refine isChain_cons_cons.2 ⟨hdash, isChain_cons_cons.2 ⟨hstart, isChain_cons.2 ⟨?_, hletters⟩⟩⟩
    intro d hd
    rw [head?_map] at hd
    obtain ⟨y, hy, rfl⟩ := Option.map_eq_some_iff.1 hd
    rw [hhead y hy]
    exact hletter
  · intro c hc
    rw [getLast?_cons_cons, getLast?_cons_cons, getLast?_cons, getLast?_map, hends] at hc
    obtain rfl : ch 'z' = c := Option.some_inj.1 hc
    exact hend

/-- where '^' is taken the walk leaves the printable bytes, and wraps -/
def wraps (c : UInt8) : Bool := c ≤ 0x2D || 0x7C ≤ c

theorem succByte_wraps : ∀ c, wraps c = true → ∃ d, succByte (some (ch '^')) c = some d ∧ wraps d = true := by
  have h : ∀ c, wraps c = true → (succByte (some (ch '^')) c).any wraps = true := by decide +kernel
  intro c hc
  exact (Option.any_eq_true _ _).1 (h c hc)

/-- where 'z' is taken the walk goes from 'y' to the brace behind it, and on to '|' again -/
def circles (c : UInt8) : Bool := c = ch '-' || c = ch '|' || c = ch '^' || c = 0x7B || (ch 'a' ≤ c && c ≤ ch 'y')

theorem succByte_circles : ∀ c, circles c = true → ∃ d, succByte (some (ch 'z')) c = some d ∧ circles d = true := by
  have h : ∀ c, circles c = true → (succByte (some (ch 'z')) c).any circles = true := by decide +kernel
  intro c hc
  exact (Option.any_eq_true _ _).1 (h c hc)

/-! ## Nicks that look alike -/

theorem cStr_append_singleton {s : CString} (h : (0 : UInt8) ∉ s) (c : UInt8) :
    (s ++ [c]).cStr = if c = 0 then s else s ++ [c] := by
  rw [cStr_append h, cStr]
  by_cases hc : c = 0
  · simp [hc]
  · simp [hc]

theorem equals_suffix_iff {sNick : CString} (h : (0 : UInt8) ∉ sNick) (c d : UInt8) :
    (sNick ++ [c]).equals (sNick ++ [d]) = decide (tolower c = tolower d) := by
  have hzero : ∀ x : UInt8, tolower x = 0 ↔ x = 0 := fun x => tolower_eq_iff rfl
  have hz : tolower 0 = 0 := rfl
  rw [equals, cStr_append_singleton h, cStr_append_singleton h]
  congr 1
  by_cases hc : c = 0
  · by_cases hd : d = 0
    · simp [hc, hd]
    · have : tolower d ≠ 0 := fun h0 => hd ((hzero d).1 h0)
      simp [hc, hd, asLower, hz, Ne.symm this]
  · by_cases hd : d = 0
    · have : tolower c ≠ 0 := fun h0 => hc ((hzero c).1 h0)
      simp [hc, hd, asLower, hz, this]
    · simp [hc, hd, asLower]

theorem equals_left_suffix {sConfNick : CString} {n : ℕ} (h : (0 : UInt8) ∈ sConfNick.left n) (c : UInt8) :
    sConfNick.equals (sConfNick.left n ++ [c]) = true := by
  have hconf : sConfNick.cStr = (sConfNick.left n).cStr := by
    calc sConfNick.cStr = (sConfNick.left n ++ sConfNick.drop n).cStr := by rw [left, take_append_drop]
      _ = (sConfNick.left n).cStr := cStr_append_of_mem h _
  rw [equals, hconf, cStr_append_of_mem h]
  exact decide_eq_true rfl

theorem exists_hit {sNick : CString} (h : (0 : UInt8) ∉ sNick) (sAltNick : CString) :
    ∃ hit : Option UInt8, altIs sAltNick sNick = fun c => decide (hit = some (tolower c)) := by
  by_cases hsome : ∃ c, altIs sAltNick sNick c = true
  · obtain ⟨c, hc⟩ := hsome
    refine ⟨some (tolower c), funext fun d => ?_⟩
    have hd : altIs sAltNick sNick d = (sNick ++ [c]).equals (sNick ++ [d]) := equals_congr hc _
    rw [hd, equals_suffix_iff h]
    simp
  · push Not at hsome
    refine ⟨none, funext fun d => ?_⟩
    simpa using hsome d

/-! ## One rejection -/

section Search

variable (sConfNick sAltNick : CString) (uMaxNickLen : UInt32)

/-- the bytes of the configured nick that leave room for a suffix -/
def stem : CString := sConfNick.left (uMaxNickLen - 1).toNat

/-- the state after the stem with a suffix has been sent -/
def suffixed (c : UInt8) : NickState := ⟨stem sConfNick uMaxNickLen ++ [c], uMaxNickLen⟩

/-- the nick sent last looks like the configured one -/
def Home (st : NickState) : Prop := st.sLastNick.equals sConfNick = true ∧ st.uMaxNickLen = uMaxNickLen

/-- what is tried after a nick that looks like the configured one -/
def firstTry : NickState :=
  if sAltNick ≠ [] && !sConfNick.equals sAltNick then ⟨sAltNick, uMaxNickLen⟩
  else suffixed sConfNick uMaxNickLen (ch '-')

variable {sConfNick sAltNick uMaxNickLen}

theorem goes_home {st : NickState} (h : Home sConfNick uMaxNickLen st) :
    Goes (rejectStep sConfNick sAltNick) st (firstTry sConfNick sAltNick uMaxNickLen) := by
  obtain ⟨heq, hmax⟩ := h
  unfold Goes rejectStep sendAltNick firstTry
  simp only [lt_irrefl, if_false, heq, if_true, hmax]
  split_ifs
  · rfl
  · rfl

theorem goes_alt (hconf : sConfNick.equals sAltNick = false)
    (hdash : altIs sAltNick (stem sConfNick uMaxNickLen) (ch '-') = false) :
    Goes (rejectStep sConfNick sAltNick) ⟨sAltNick, uMaxNickLen⟩ (suffixed sConfNick uMaxNickLen (ch '-')) := by
  have hconf' : sAltNick.equals sConfNick = false := by rw [equals_comm]; exact hconf
  have hdash' : sAltNick.equals (sConfNick.left (uMaxNickLen - 1).toNat ++ lit "-") = false := hdash
  unfold Goes rejectStep sendAltNick
  simp only [lt_irrefl, if_false, hconf', Bool.false_eq_true, equals_refl, hdash', Bool.not_false,
    Bool.and_self, if_true]
  rfl

theorem goes_alt_dash (hconf : sConfNick.equals sAltNick = false)
    (hdash : altIs sAltNick (stem sConfNick uMaxNickLen) (ch '-') = true)
    (hbar : altIs sAltNick (stem sConfNick uMaxNickLen) (ch '|') = false) :
    Goes (rejectStep sConfNick sAltNick) ⟨sAltNick, uMaxNickLen⟩ (suffixed sConfNick uMaxNickLen (ch '|')) := by
  have hconf' : sAltNick.equals sConfNick = false := by rw [equals_comm]; exact hconf
  have hdash' : sAltNick.equals (sConfNick.left (uMaxNickLen - 1).toNat ++ lit "-") = true := hdash
  have hbar' : sAltNick.equals (sConfNick.left (uMaxNickLen - 1).toNat ++ lit "|") = false := hbar
  unfold Goes rejectStep sendAltNick
  simp only [lt_irrefl, if_false, hconf', Bool.false_eq_true, equals_refl, hdash', hbar', Bool.not_true, Bool.and_false,
    Bool.not_false, Bool.and_self, if_true]
  rfl

/-- **From a suffixed nick the search goes where the suffix goes**, unless the nick looks like the configured one. -/
theorem reject_suffixed {hit : Option UInt8} (hnul : (0 : UInt8) ∉ stem sConfNick uMaxNickLen)
    (hhit : altIs sAltNick (stem sConfNick uMaxNickLen) = fun c => decide (hit = some (tolower c))) (c : UInt8)
    (hc : sConfNick.equals (stem sConfNick uMaxNickLen ++ [c]) = false) :
    rejectStep sConfNick sAltNick (suffixed sConfNick uMaxNickLen c) =
      (succByte hit c).map (suffixed sConfNick uMaxNickLen) := by
  have hlow : ∀ x : UInt8, (tolower x = ch '-' ↔ x = ch '-') ∧ (tolower x = ch '|' ↔ x = ch '|') ∧
      (tolower x = ch '^' ↔ x = ch '^') :=
    fun x => ⟨tolower_eq_iff rfl, tolower_eq_iff rfl, tolower_eq_iff rfl⟩
  have hself : tolower (ch '-') = ch '-' ∧ tolower (ch '|') = ch '|' ∧ tolower (ch '^') = ch '^' ∧
      tolower (ch 'a') = ch 'a' := by decide
  have hconf : (stem sConfNick uMaxNickLen ++ [c]).equals sConfNick = false := by rw [equals_comm]; exact hc
  have halt : ∀ d, sAltNick.equals (stem sConfNick uMaxNickLen ++ [d]) = decide (hit = some (tolower d)) :=
    fun d => congrFun hhit d
  have halt' : ∀ d, (stem sConfNick uMaxNickLen ++ [d]).equals sAltNick = decide (hit = some (tolower d)) :=
    fun d => by rw [equals_comm]; exact halt d
  have hstem : sConfNick.left (uMaxNickLen - 1).toNat = stem sConfNick uMaxNickLen := rfl
  have hlits : lit "-" = [ch '-'] ∧ lit "|" = [ch '|'] ∧ lit "^" = [ch '^'] ∧ lit "a" = [ch 'a'] := ⟨rfl, rfl, rfl, rfl⟩
  unfold rejectStep sendAltNick suffixed succByte
  simp only [lt_irrefl, if_false, hstem, hlits.1, hlits.2.1, hlits.2.2.1, hlits.2.2.2, hconf,
    Bool.false_eq_true, halt, halt',
    equals_suffix_iff hnul, (hlow c).1, (hlow c).2.1, (hlow c).2.2, hself.1, hself.2.1, hself.2.2.1, hself.2.2.2,
    getLast?_concat, Bool.and_eq_true, Bool.not_eq_true', decide_eq_true_eq, decide_eq_false_iff_not, ne_eq]
  split_ifs <;> rfl

/-! ## Whole searches -/

theorem dash_mem_suffixes (alt : UInt8 → Bool) : ch '-' ∈ suffixes alt := by
  have hfrom : ch '-' ∈ bytesFrom (ch '-') 50 := (mem_bytesFrom (by decide)).2 (by decide)
  unfold suffixes
  split_ifs
  · exact mem_append_left _ hfrom
  · exact mem_cons_self
  · exact mem_cons_self

theorem not_halts_of_dash (h : sConfNick.equals (stem sConfNick uMaxNickLen ++ [ch '-']) = true) :
    ¬ Halts (rejectStep sConfNick sAltNick) (registering sConfNick uMaxNickLen) := by
  have hhome : Home sConfNick uMaxNickLen (suffixed sConfNick uMaxNickLen (ch '-')) :=
    ⟨by rw [equals_comm]; exact h, rfl⟩
  have hstart : Goes (rejectStep sConfNick sAltNick) (registering sConfNick uMaxNickLen)
      (firstTry sConfNick sAltNick uMaxNickLen) := goes_home ⟨equals_refl _, rfl⟩
  have hback : Goes (rejectStep sConfNick sAltNick) (suffixed sConfNick uMaxNickLen (ch '-'))
      (firstTry sConfNick sAltNick uMaxNickLen) := goes_home hhome
  rw [halts_iff_of_goes hstart]
  by_cases halt : (sAltNick ≠ [] && !sConfNick.equals sAltNick) = true
  · -- the alternate nick is tried in between
    have hconf : sConfNick.equals sAltNick = false := by
      rw [Bool.and_eq_true, Bool.not_eq_true'] at halt
      exact halt.2
    have hdash : altIs sAltNick (stem sConfNick uMaxNickLen) (ch '-') = false := by
      rw [← Bool.not_eq_true]
      intro hd
      have := equals_trans h (by rw [equals_comm]; exact hd)
      rw [hconf] at this
      exact absurd this Bool.false_ne_true
    have hfirst : firstTry sConfNick sAltNick uMaxNickLen = ⟨sAltNick, uMaxNickLen⟩ := if_pos halt
    rw [hfirst] at hback ⊢
    exact not_halts_of_cycle ((TransGen.single (goes_alt hconf hdash)).tail hback)
  · have hfirst : firstTry sConfNick sAltNick uMaxNickLen = suffixed sConfNick uMaxNickLen (ch '-') := if_neg halt
    rw [hfirst] at hback ⊢
    exact not_halts_of_cycle (TransGen.single hback)

theorem not_halts_of_closed_bytes {hit : Option UInt8} (hnul : (0 : UInt8) ∉ stem sConfNick uMaxNickLen)
    (hhit : altIs sAltNick (stem sConfNick uMaxNickLen) = fun c => decide (hit = some (tolower c)))
    (hne : hit ≠ some (ch '-')) (B : UInt8 → Bool) (hdash : B (ch '-') = true)
    (hB : ∀ c, B c = true → ∃ d, succByte hit c = some d ∧ B d = true) :
    ¬ Halts (rejectStep sConfNick sAltNick) (registering sConfNick uMaxNickLen) := by
  have hnotdash : altIs sAltNick (stem sConfNick uMaxNickLen) (ch '-') = false := by
    rw [hhit]
    exact decide_eq_false hne
  -- looking like the configured nick, being the alternate nick, or a suffix of the set
  set P : NickState → Prop := fun st => Home sConfNick uMaxNickLen st ∨ st = ⟨sAltNick, uMaxNickLen⟩ ∨
    ∃ c, B c = true ∧ st = suffixed sConfNick uMaxNickLen c with hP
  have hfirst : P (firstTry sConfNick sAltNick uMaxNickLen) := by
    unfold firstTry
    split_ifs
    · exact .inr (.inl rfl)
    · exact .inr (.inr ⟨_, hdash, rfl⟩)
  refine not_halts_of_closed P ?_ (.inl ⟨equals_refl _, rfl⟩)
  intro st hst
  by_cases hhome : Home sConfNick uMaxNickLen st
  · exact ⟨_, goes_home hhome, hfirst⟩
  · rcases hst with h | rfl | ⟨c, hc, rfl⟩
    · exact absurd h hhome
    · have hconf : sConfNick.equals sAltNick = false := by
        rw [← Bool.not_eq_true, equals_comm]
        exact fun h0 => hhome ⟨h0, rfl⟩
      exact ⟨_, goes_alt hconf hnotdash, .inr (.inr ⟨_, hdash, rfl⟩)⟩
    · have hconf : sConfNick.equals (stem sConfNick uMaxNickLen ++ [c]) = false := by
        rw [← Bool.not_eq_true, equals_comm]
        exact fun h0 => hhome ⟨h0, rfl⟩
      obtain ⟨d, hd, hBd⟩ := hB c hc
      refine ⟨suffixed sConfNick uMaxNickLen d, ?_, .inr (.inr ⟨d, hBd, rfl⟩)⟩
      rw [reject_suffixed hnul hhit c hconf, hd]
      rfl

theorem halts_suffixed_iff {hit : Option UInt8} (hnul : (0 : UInt8) ∉ stem sConfNick uMaxNickLen)
    (hhit : altIs sAltNick (stem sConfNick uMaxNickLen) = fun c => decide (hit = some (tolower c))) (c : UInt8)
    (cs : List UInt8) (hchain : (c :: cs).IsChain fun x y => succByte hit x = some y)
    (hlast : ∀ x ∈ (c :: cs).getLast?, succByte hit x = none)
    (hhome : ∀ st, Home sConfNick uMaxNickLen st →
      TransGen (Goes (rejectStep sConfNick sAltNick)) st (suffixed sConfNick uMaxNickLen c)) :
    Halts (rejectStep sConfNick sAltNick) (suffixed sConfNick uMaxNickLen c) ↔
      ∀ x ∈ c :: cs, sConfNick.equals (stem sConfNick uMaxNickLen ++ [x]) = false := by
  have hfree : ∀ x, ¬ Home sConfNick uMaxNickLen (suffixed sConfNick uMaxNickLen x) ↔
      sConfNick.equals (stem sConfNick uMaxNickLen ++ [x]) = false := by
    intro x
    rw [← Bool.not_eq_true, equals_comm]
    exact not_congr ⟨fun h => h.1, fun h => ⟨h, rfl⟩⟩
  have hstates : ((c :: cs).map (suffixed sConfNick uMaxNickLen)).IsChain fun y z =>
      ¬ Home sConfNick uMaxNickLen y → Goes (rejectStep sConfNick sAltNick) y z := by
    rw [isChain_map]
    refine hchain.imp fun x y hxy hx => ?_
    unfold Goes
    rw [reject_suffixed hnul hhit x ((hfree x).1 hx), hxy]
    rfl
  have hend : ∀ y ∈ ((c :: cs).map (suffixed sConfNick uMaxNickLen)).getLast?, ¬ Home sConfNick uMaxNickLen y →
      rejectStep sConfNick sAltNick y = none := by
    intro y hy hhome
    rw [getLast?_map] at hy
    obtain ⟨x, hx, rfl⟩ := Option.map_eq_some_iff.1 hy
    rw [reject_suffixed hnul hhit x ((hfree x).1 hhome), hlast x hx]
    rfl
  rw [halts_chain_iff _ _ hstates hend hhome]
  constructor
  · intro h x hx
    exact (hfree x).1 (h _ (mem_map_of_mem hx))
  · intro h y hy
    rw [← map_cons] at hy
    obtain ⟨x, hx, rfl⟩ := mem_map.1 hy
    exact (hfree x).2 (h x hx)

theorem suffixes_dash : ∃ cs, (suffixes fun c => some (ch '-') = some (tolower c)) = ch '-' :: ch '|' :: cs := by
  rw [suffixes, if_neg (by decide), if_neg (by decide)]
  exact ⟨_, rfl⟩

theorem suffixes_head (alt : UInt8 → Bool) : ∃ cs, suffixes alt = ch '-' :: cs := by
  unfold suffixes
  split_ifs
  · exact ⟨_, rfl⟩
  · exact ⟨_, rfl⟩
  · exact ⟨_, rfl⟩

/-- **When a search ends.** -/
theorem halts_iff_freeSearch : Halts (rejectStep sConfNick sAltNick) (registering sConfNick uMaxNickLen) ↔
    FreeSearch sConfNick sAltNick (stem sConfNick uMaxNickLen) := by
  by_cases hconfdash : sConfNick.equals (stem sConfNick uMaxNickLen ++ [ch '-']) = true
  · refine ⟨fun h => absurd h (not_halts_of_dash hconfdash), fun h => ?_⟩
    rw [h.confFree _ (dash_mem_suffixes _)] at hconfdash
    exact absurd hconfdash Bool.false_ne_true
  have hnul : (0 : UInt8) ∉ stem sConfNick uMaxNickLen := fun h0 => hconfdash (equals_left_suffix h0 _)
  obtain ⟨hit, hhit⟩ := exists_hit hnul sAltNick
  by_cases hcaret : hit = some (ch '^')
  · subst hcaret
    refine ⟨fun h => absurd h (not_halts_of_closed_bytes hnul hhit (by decide) wraps rfl succByte_wraps), fun h => ?_⟩
    have := h.notCaret
    rw [hhit] at this
    exact absurd this (by decide)
  by_cases hz : hit = some (ch 'z')
  · subst hz
    refine ⟨fun h => absurd h (not_halts_of_closed_bytes hnul hhit (by decide) circles rfl succByte_circles), fun h => ?_⟩
    have := h.notZ
    rw [hhit] at this
    exact absurd this (by decide)
  obtain ⟨hchain, hlast⟩ := runsAlong hit hcaret hz
  rw [← hhit] at hchain hlast
  have hfree : FreeSearch sConfNick sAltNick (stem sConfNick uMaxNickLen) ↔
      ∀ c ∈ suffixes (altIs sAltNick (stem sConfNick uMaxNickLen)),
        sConfNick.equals (stem sConfNick uMaxNickLen ++ [c]) = false := by
    refine ⟨fun h => h.confFree, fun h => ⟨?_, ?_, h⟩⟩
    · rw [hhit]
      exact decide_eq_false hcaret
    · rw [hhit]
      exact decide_eq_false hz
  rw [hfree]
  have hstart : Goes (rejectStep sConfNick sAltNick) (registering sConfNick uMaxNickLen)
      (firstTry sConfNick sAltNick uMaxNickLen) := goes_home ⟨equals_refl _, rfl⟩
  rw [halts_iff_of_goes hstart]
  obtain ⟨cs, hcs⟩ := suffixes_head (altIs sAltNick (stem sConfNick uMaxNickLen))
  by_cases halt : (sAltNick ≠ [] && !sConfNick.equals sAltNick) = true
  · have hfirst : firstTry sConfNick sAltNick uMaxNickLen = ⟨sAltNick, uMaxNickLen⟩ := if_pos halt
    have hconf : sConfNick.equals sAltNick = false := by
      rw [Bool.and_eq_true, Bool.not_eq_true'] at halt
      exact halt.2
    by_cases hdash : hit = some (ch '-')
    · -- the alternate nick stands for the stem with '-': the run begins behind it
      subst hdash
      obtain ⟨ds, hds⟩ := suffixes_dash
      rw [← hhit] at hds
      have hbar := goes_alt_dash hconf (by rw [hhit]; rfl) (by rw [hhit]; rfl)
      rw [hds] at hchain hlast ⊢
      have htail := (isChain_cons_cons.1 hchain).2
      rw [hfirst, halts_iff_of_goes hbar, halts_suffixed_iff hnul hhit _ _ htail
        (fun x hx => hlast x (by rw [getLast?_cons_cons]; exact hx))
        (fun st hst => (TransGen.single (goes_home hst)).tail (by rw [hfirst]; exact hbar))]
      rw [forall_mem_cons (a := ch '-')]
      exact ⟨fun h => ⟨by rw [← Bool.not_eq_true]; exact hconfdash, h⟩, fun h => h.2⟩
    · have hgo := goes_alt hconf (by rw [hhit]; exact decide_eq_false hdash)
      rw [hcs] at hchain hlast ⊢
      rw [hfirst, halts_iff_of_goes hgo]
      exact halts_suffixed_iff hnul hhit _ _ hchain hlast
        fun st hst => (TransGen.single (goes_home hst)).tail (by rw [hfirst]; exact hgo)
  · have hfirst : firstTry sConfNick sAltNick uMaxNickLen = suffixed sConfNick uMaxNickLen (ch '-') := if_neg halt
    rw [hcs] at hchain hlast ⊢
    rw [hfirst]
    refine halts_suffixed_iff hnul hhit _ _ hchain hlast fun st hst => TransGen.single ?_
    rw [← hfirst]
    exact goes_home hst

/-! ## The nicks of a search -/

theorem rejectStep_uMaxNickLen {st st' : NickState} (h : rejectStep sConfNick sAltNick st = some st') :
    st'.uMaxNickLen = st.uMaxNickLen := by
  unfold rejectStep sendAltNick at h
  simp only [lt_irrefl, if_false] at h
  split at h
  · rename_i st1 hst1
    obtain rfl := Option.some_inj.1 h
    split_ifs at hst1
    · obtain rfl := Reply.nick.inj hst1; rfl
    · obtain rfl := Reply.nick.inj hst1; rfl
    · obtain rfl := Reply.nick.inj hst1; rfl
    · obtain rfl := Reply.nick.inj hst1; rfl
    · obtain rfl := Reply.nick.inj hst1; rfl
    · obtain rfl := Reply.nick.inj hst1; rfl
    · split at hst1
      · exact Reply.noConfusion hst1
      · split_ifs at hst1
        · obtain rfl := Reply.nick.inj hst1; rfl
        · obtain rfl := Reply.nick.inj hst1; rfl
  · exact absurd h (by simp)

theorem visit_uMaxNickLen {n : ℕ} {st : NickState}
    (h : visit (rejectStep sConfNick sAltNick) (registering sConfNick uMaxNickLen) n = some st) :
    st.uMaxNickLen = uMaxNickLen := by
  induction n generalizing st with
  | zero =>
    obtain rfl := Option.some_inj.1 h
    rfl
  | succ n ih =>
    obtain ⟨st1, h1, hgo⟩ := Option.bind_eq_some_iff.1 h
    exact (rejectStep_uMaxNickLen hgo).trans (ih h1)

end Search

/-- **The search for a free nick** ends, without trying a nick twice, exactly if the alternate nick looks like neither '^' nor
'z' behind the stem of the configured nick, and the configured nick like none of the suffixed nicks on the way. -/
theorem alt_nick_search_iff (sConfNick sAltNick : CString) (uMaxNickLen : UInt32) :
    ((∃ n, tried sConfNick sAltNick uMaxNickLen n = none) ∧
      ∀ i j a b, i < j → tried sConfNick sAltNick uMaxNickLen i = some a →
        tried sConfNick sAltNick uMaxNickLen j = some b → a ≠ b) ↔
      FreeSearch sConfNick sAltNick (sConfNick.left (uMaxNickLen - 1).toNat) := by
  have hends : (∃ n, tried sConfNick sAltNick uMaxNickLen n = none) ↔
      Halts (rejectStep sConfNick sAltNick) (registering sConfNick uMaxNickLen) := by
    constructor
    · rintro ⟨n, hn⟩
      exact ⟨n + 1, Option.map_eq_none_iff.1 hn⟩
    · rintro ⟨n, hn⟩
      cases n with
      | zero => exact absurd hn (by simp [visit])
      | succ n => exact ⟨n, Option.map_eq_none_iff.2 hn⟩
  have hfree : Halts (rejectStep sConfNick sAltNick) (registering sConfNick uMaxNickLen) ↔
      FreeSearch sConfNick sAltNick (sConfNick.left (uMaxNickLen - 1).toNat) := halts_iff_freeSearch
  rw [hends, hfree]
  refine ⟨fun h => h.1, fun h => ⟨h, ?_⟩⟩
  intro i j a b hij hi hj hab
  obtain ⟨st, hst, rfl⟩ := Option.map_eq_some_iff.1 hi
  obtain ⟨st', hst', rfl⟩ := Option.map_eq_some_iff.1 hj
  -- the same nick would be the same state
  refine visit_ne_of_halts (hfree.2 h) (Nat.succ_lt_succ hij) hst hst' ?_
  have hlen := (visit_uMaxNickLen hst).trans (visit_uMaxNickLen hst').symm
  cases st
  cases st'
  simp only [NickState.mk.injEq]
  exact ⟨hab, hlen⟩

/-- with nine bytes the search for `nicknames` comes from `nicknamer` to the configured nick, and begins again -/
theorem alt_nick_search_cycles :
    tried (lit "nicknames") [] 9 0 = some (lit "nickname-") ∧
      tried (lit "nicknames") [] 9 21 = some (lit "nicknames") ∧
      tried (lit "nicknames") [] 9 22 = some (lit "nickname-") := by
  decide

end ZNC.AltNick
