/-
The modes of a channel, printed and read again: `CChan::GetModeString` and `CChan::SetModes` of `src/Chan.cpp`.

`GetModeString` prints the letters of all modes and then the arguments that are not empty; `SetModes` gives the arguments out
again by the type of each letter. A parameter with a colon in front is the last one and goes to the end of the line.

Model: `setModesLine` is `SetModes` on one string, with `splitArgs` for its loop over the parameters. A mode table is one that
`ModeChange`, the 324 reply and `Reset` lead to under the tables of one server.

Results:
- `run_modesOk`: list modes, permission modes, '+' and '-' never get into the table;
- `setModes_getModeString`: a table whose arguments can stand in a line is printed and read back;
- `mode_round_trip`: both for every run; `mode_round_trip_fails`: a key with a colon in front is not read back.
-/
import ZNC.Chan

namespace ZNC.Chan

open CString Words List OrdMap Chan.CChan

/-! ## Model -/

/-- the loop of `ModeChange(sModes)` over the parameters -/
def splitArgs (sArgs : CString) : VCString :=
  if h : sArgs = [] then []
  else if sArgs.startsWith (lit ":") then [sArgs.drop 1]
  else
    have : (sArgs.token 1 true (ch ' ') false).length < sArgs.length := length_token_rest_lt h (ch ' ')
    sArgs.token 0 false (ch ' ') false :: splitArgs (sArgs.token 1 true (ch ' ') false)
termination_by sArgs.length

def CChan.modeChangeLine (t : ServerTables) (sCurNick : CString) (c : CChan) (sModes : CString) : CChan :=
  let sModeArg := sModes.token 0 false (ch ' ') false
  -- behind a colon there are no parameters
  let vsModes := if sModeArg.startsWith (lit ":") then [] else splitArgs (sModes.token 1 true (ch ' ') false)
  c.modeChange t sCurNick (sModeArg.trimPrefix_n (lit ":")) vsModes

def CChan.setModesLine (t : ServerTables) (sCurNick : CString) (c : CChan) (sModes : CString) : CChan :=
  { c with mcsModes := .empty }.modeChangeLine t sCurNick sModes

/-- what changes the mode table: MODE, the reply to a query for the modes, and leaving the channel -/
inductive ModeOp where
  | modeChange (sModes : CString) (vsModes : VCString)
  | setModes (sModes : CString) (vsModes : VCString)
  | reset
deriving DecidableEq

def ModeOp.exec (t : ServerTables) (sCurNick : CString) (c : CChan) : ModeOp → CChan
  | .modeChange sModes vsModes => c.modeChange t sCurNick sModes vsModes
  | .setModes sModes vsModes => c.setModes t sCurNick sModes vsModes
  | .reset => c.reset

def runModes (t : ServerTables) (sCurNick : CString) (ops : List ModeOp) : CChan :=
  ops.foldl (ModeOp.exec t sCurNick) .new

/-! ## What gets into the table -/

/-- a letter that may stand in the mode table -/
structure ModeKey (t : ServerTables) (cMode : UInt8) : Prop where
  notPlus : cMode ≠ ch '+'
  notMinus : cMode ≠ ch '-'
  notPerm : t.isPermMode cMode = false
  notList : t.getModeType cMode ≠ .ListArg

/-- the letters of the table may stand there, and those without arguments have none -/
structure ModesOk (t : ServerTables) (mcsModes : OrdMap UInt8 CString) : Prop where
  key : ∀ cMode sArg, mcsModes.find cMode = some sArg → ModeKey t cMode
  noArg : ∀ cMode sArg, mcsModes.find cMode = some sArg → t.getModeType cMode = .NoArg → sArg = []

theorem modesOk_empty (t : ServerTables) : ModesOk t .empty := by
  constructor
  · intro cMode sArg h
    rw [find_empty] at h
    cases h
  · intro cMode sArg h
    rw [find_empty] at h
    cases h

variable {t : ServerTables} {c : CChan}

theorem ModesOk.insert {m : OrdMap UInt8 CString} (h : ModesOk t m) {cMode : UInt8} {sArg : CString}
    (hkey : ModeKey t cMode) (harg : t.getModeType cMode = .NoArg → sArg = []) : ModesOk t (m.insert cMode sArg) := by
  constructor
  · intro cMode' sArg' hfind
    rw [find_insert] at hfind
    split_ifs at hfind with hk
    · rw [hk]
      exact hkey
    · exact h.key cMode' sArg' hfind
  · intro cMode' sArg' hfind htype
    rw [find_insert] at hfind
    split_ifs at hfind with hk
    · rw [hk] at htype
      rw [← Option.some_inj.1 hfind]
      exact harg htype
    · exact h.noArg cMode' sArg' hfind htype

theorem ModesOk.erase {m : OrdMap UInt8 CString} (h : ModesOk t m) (cMode : UInt8) :
    ModesOk t (m.erase cMode) := by
  have hsub : ∀ cMode' sArg', (m.erase cMode).find cMode' = some sArg' → m.find cMode' = some sArg' := by
    intro cMode' sArg' hfind
    rw [find_erase] at hfind
    split_ifs at hfind
    exact hfind
  exact ⟨fun k v hfind => h.key k v (hsub k v hfind), fun k v hfind => h.noArg k v (hsub k v hfind)⟩

theorem chanMode_modes (t : ServerTables) (c : CChan) (bAdd : Bool) (cMode : UInt8) (sArg : CString) :
    (c.chanMode t bAdd cMode sArg).mcsModes =
      if t.getModeType cMode = .ListArg then c.mcsModes
      else if bAdd then c.mcsModes.insert cMode sArg
      else if c.hasMode cMode then c.mcsModes.erase cMode else c.mcsModes := by
  unfold chanMode addMode remMode
  dsimp only
  split_ifs <;> rfl

theorem permMode_modes (t : ServerTables) (sCurNick : CString) (c : CChan) (bAdd : Bool)
    (cMode : UInt8) (sArg : CString) :
    (c.permMode t sCurNick bAdd cMode sArg).mcsModes = c.mcsModes := by
  unfold permMode
  cases c.findNick sArg with
  | none => rfl
  | some n =>
    dsimp only
    split_ifs <;> rfl

theorem chanMode_modesOk (h : ModesOk t c.mcsModes) {bAdd : Bool} {cMode : UInt8} {sArg : CString}
    (hplus : cMode ≠ ch '+') (hminus : cMode ≠ ch '-') (hperm : t.isPermMode cMode = false)
    (harg : t.getModeType cMode = .NoArg → sArg = []) : ModesOk t (c.chanMode t bAdd cMode sArg).mcsModes := by
  rw [chanMode_modes]
  split_ifs with hlist hadd hhas
  · exact h
  · exact h.insert ⟨hplus, hminus, hperm, hlist⟩ harg
  · exact h.erase cMode
  · exact h

theorem modeLoop_modesOk {sCurNick : CString} {bAdd : Bool} {vsModes : VCString} {sModes : CString}
    (h : ModesOk t c.mcsModes) :
    ModesOk t (modeLoop t sCurNick c bAdd vsModes sModes).mcsModes := by
  induction sModes generalizing c bAdd vsModes with
  | nil => exact h
  | cons cMode sModes ih =>
    rw [modeLoop]
    by_cases hplus : cMode = ch '+'
    · rw [if_pos hplus]
      exact ih h
    by_cases hminus : cMode = ch '-'
    · rw [if_neg hplus, if_pos hminus]
      exact ih h
    rw [if_neg hplus, if_neg hminus]
    apply ih
    by_cases hperm : t.isPermMode cMode = true
    · rw [if_pos hperm, permMode_modes]
      exact h
    · have hperm' : t.isPermMode cMode = false := by simpa using hperm
      rw [if_neg hperm]
      apply chanMode_modesOk h hplus hminus hperm'
      intro htype
      have htakes : takesArg t bAdd cMode = false := by rw [takesArg, hperm', htype]; rfl
      rw [htakes]
      rfl

theorem exec_modesOk {sCurNick : CString} (h : ModesOk t c.mcsModes) (op : ModeOp) :
    ModesOk t (op.exec t sCurNick c).mcsModes := by
  cases op with
  | modeChange sModes vsModes => exact modeLoop_modesOk h
  | setModes sModes vsModes => exact modeLoop_modesOk (modesOk_empty t)
  | reset => exact modesOk_empty t

theorem run_modesOk (t : ServerTables) (sCurNick : CString) (ops : List ModeOp) :
    ModesOk t (runModes t sCurNick ops).mcsModes := by
  unfold runModes
  induction ops using List.reverseRecOn with
  | nil => exact modesOk_empty t
  | append_singleton ops op ih =>
    rw [foldl_concat]
    exact exec_modesOk ih op

/-! ## Arguments in a line -/

/-- an argument that stands for itself in a line -/
structure PlainArg (sArg : CString) : Prop where
  ne : sArg ≠ []
  noSpace : ch ' ' ∉ sArg
  noColon : sArg.head? ≠ some (ch ':')

theorem startsWith_colon (s : CString) : s.startsWith (lit ":") = true ↔ s.head? = some (ch ':') := by
  have hcolon : ∀ b, tolower b = tolower (ch ':') ↔ b = ch ':' := fun b => tolower_eq_iff rfl
  exact startsWith_singleton hcolon (by decide)

/-- the text of some arguments, each behind a space -/
def argsText (vsArgs : VCString) : CString := vsArgs.flatMap (ch ' ' :: ·)

theorem PlainArg.start {sArg : CString} (h : PlainArg sArg) (r : CString) :
    sArg ++ r ≠ [] ∧ ¬(sArg ++ r).startsWith (lit ":") = true ∧ (sArg ++ r).dropWhile (· = ch ' ') = sArg ++ r := by
  rw [startsWith_colon]
  obtain ⟨hne, hspace, hcolon⟩ := h
  cases sArg with
  | nil => exact absurd rfl hne
  | cons b s =>
    have hb : b ≠ ch ' ' := fun h0 => hspace (by rw [h0]; exact mem_cons_self)
    refine ⟨cons_ne_nil _ _, hcolon, ?_⟩
    rw [cons_append, dropWhile_cons_of_neg (by simpa using hb)]

/-- **Arguments in a line are read back.** -/
theorem splitArgs_argsText {sArg : CString} (h : PlainArg sArg) {vsArgs : VCString} (hargs : ∀ s ∈ vsArgs, PlainArg s) :
    splitArgs (sArg ++ argsText vsArgs) = sArg :: vsArgs := by
  induction vsArgs generalizing sArg with
  | nil =>
    obtain ⟨hne, hcolon, -⟩ := h.start []
    rw [append_nil] at hne hcolon
    calc splitArgs (sArg ++ argsText []) = splitArgs sArg := congrArg splitArgs (append_nil sArg)
      _ = sArg.token 0 false (ch ' ') false :: splitArgs (sArg.token 1 true (ch ' ') false) := by
        rw [splitArgs, dif_neg hne, if_neg hcolon]
      _ = sArg :: splitArgs [] := by rw [token_zero_of_not_mem h.noSpace, token_rest_of_not_mem h.noSpace]
      _ = [sArg] := by rw [splitArgs, dif_pos rfl]
  | cons s vsArgs ih =>
    have hs := hargs s mem_cons_self
    obtain ⟨hne, hcolon, -⟩ := h.start (argsText (s :: vsArgs))
    have htext : sArg ++ argsText (s :: vsArgs) = sArg ++ ch ' ' :: (s ++ argsText vsArgs) := rfl
    have hfirst : (sArg ++ argsText (s :: vsArgs)).token 0 false (ch ' ') false = sArg := by
      rw [htext, token_zero_append h.ne h.noSpace]
    have hrest : (sArg ++ argsText (s :: vsArgs)).token 1 true (ch ' ') false = s ++ argsText vsArgs := by
      rw [htext, token_rest h.ne h.noSpace, (hs.start _).2.2]
    calc splitArgs (sArg ++ argsText (s :: vsArgs)) = sArg :: splitArgs (s ++ argsText vsArgs) := by
          rw [splitArgs, dif_neg hne, if_neg hcolon, hfirst, hrest]
      _ = sArg :: s :: vsArgs := by rw [ih hs fun x hx => hargs x (mem_cons_of_mem _ hx)]

/-! ## Printing and reading -/

/-- the arguments of the table can stand in a line, and no letter is a space -/
structure ModesPlain (t : ServerTables) (mcsModes : OrdMap UInt8 CString) : Prop where
  letter : ∀ cMode sArg, mcsModes.find cMode = some sArg → cMode ≠ ch ' '
  arg : ∀ cMode sArg, mcsModes.find cMode = some sArg → takesArg t true cMode = true → PlainArg sArg

theorem modeLoop_entries (sCurNick : CString) (l : List (UInt8 × CString))
    (hl : ∀ e ∈ l, ModeKey t e.1 ∧ takesArg t true e.1 = decide (e.2 ≠ [])) (c : CChan) :
    (modeLoop t sCurNick c true ((l.map Prod.snd).filter (· ≠ [])) (l.map Prod.fst)).mcsModes =
      l.foldl (fun m e => m.insert e.1 e.2) c.mcsModes := by
  induction l generalizing c with
  | nil => rfl
  | cons e l ih =>
    obtain ⟨hkey, htakes⟩ := hl e mem_cons_self
    have hstep : ∀ c : CChan, (c.chanMode t true e.1 e.2).mcsModes = c.mcsModes.insert e.1 e.2 := by
      intro c
      rw [chanMode_modes, if_neg hkey.notList, if_pos rfl]
    have hrest := ih fun x hx => hl x (mem_cons_of_mem _ hx)
    rw [map_cons, map_cons, modeLoop, if_neg hkey.notPlus, if_neg hkey.notMinus, foldl_cons, ← hstep, ← hrest,
      hkey.notPerm, htakes]
    by_cases harg : e.2 = []
    · simp [harg]
    · simp [harg]

theorem entries_takesArg {m : OrdMap UInt8 CString} (hok : ModesOk t m) (hplain : ModesPlain t m) {e : UInt8 × CString}
    (he : e ∈ m.entries) : takesArg t true e.1 = decide (e.2 ≠ []) := by
  have hfind := (m.mem_entries_iff e.1 e.2).1 he
  by_cases htakes : takesArg t true e.1 = true
  · rw [htakes, decide_eq_true (hplain.arg _ _ hfind htakes).ne]
  · have hkey := hok.key _ _ hfind
    have htype : t.getModeType e.1 = .NoArg := by
      rw [takesArg, hkey.notPerm, Bool.false_or] at htakes
      cases hty : t.getModeType e.1 with
      | ListArg => exact absurd hty hkey.notList
      | HasArg => rw [hty] at htakes; exact absurd rfl htakes
      | ArgWhenSet => rw [hty] at htakes; exact absurd rfl htakes
      | NoArg => rfl
    rw [Bool.eq_false_iff.2 htakes, hok.noArg _ _ hfind htype]
    rfl

theorem argsText_eq (m : OrdMap UInt8 CString) :
    (m.entries.flatMap fun it => if it.2 = [] then [] else ch ' ' :: it.2) =
      argsText ((m.entries.map Prod.snd).filter (· ≠ [])) := by
  unfold argsText
  induction m.entries with
  | nil => rfl
  | cons e l ih =>
    by_cases harg : e.2 = []
    · simp [harg, ih]
    · simp [harg, ih]

theorem setModes_getModeString (hok : ModesOk t c.mcsModes) (hplain : ModesPlain t c.mcsModes) (sCurNick : CString)
    (c' : CChan) :
    (c'.setModesLine t sCurNick c.getModeString).mcsModes = c.mcsModes := by
  have hentries : ∀ e ∈ c.mcsModes.entries, ModeKey t e.1 ∧ takesArg t true e.1 = decide (e.2 ≠ []) := fun e he =>
    ⟨hok.key _ _ ((c.mcsModes.mem_entries_iff e.1 e.2).1 he), entries_takesArg hok hplain he⟩
  set vsArgs := (c.mcsModes.entries.map Prod.snd).filter (· ≠ []) with hvs
  have hargs : ∀ s ∈ vsArgs, PlainArg s := by
    intro s hs
    obtain ⟨hmem, hne⟩ := mem_filter.1 hs
    obtain ⟨e, he, rfl⟩ := mem_map.1 hmem
    apply hplain.arg e.1 e.2 ((c.mcsModes.mem_entries_iff e.1 e.2).1 he)
    rw [(hentries e he).2]
    exact hne
  have hletters : ch ' ' ∉ ch '+' :: c.mcsModes.keys := by
    intro hm
    rcases mem_cons.1 hm with h | h
    · exact absurd h (by decide)
    · obtain ⟨e, he, h0⟩ := mem_map.1 h
      exact hplain.letter e.1 e.2 ((c.mcsModes.mem_entries_iff e.1 e.2).1 he) h0
  have hloop : (modeLoop t sCurNick { c' with mcsModes := .empty } true vsArgs (ch '+' :: c.mcsModes.keys)).mcsModes =
      c.mcsModes := by
    rw [modeLoop, if_pos rfl, hvs, OrdMap.keys, modeLoop_entries sCurNick _ hentries]
    exact ofList_entries c.mcsModes
  by_cases hkeys : c.mcsModes.keys = []
  · have hempty : c.mcsModes = .empty := ext_entries (map_eq_nil_iff.1 hkeys)
    have hstring : c.getModeString = [] := by rw [getModeString, if_pos hkeys]
    rw [hstring, hempty]
    rfl
  · have hstring : c.getModeString = (ch '+' :: c.mcsModes.keys) ++ argsText vsArgs := by
      rw [getModeString, if_neg hkeys, argsText_eq]
      rfl
    have hcolon : ¬CString.startsWith (ch '+' :: c.mcsModes.keys) (lit ":") = true := by
      rw [startsWith_colon]
      exact fun h => absurd (Option.some.inj h) (by decide)
    have htokens : c.getModeString.token 0 false (ch ' ') false = ch '+' :: c.mcsModes.keys ∧
        splitArgs (c.getModeString.token 1 true (ch ' ') false) = vsArgs := by
      rw [hstring]
      cases hv : vsArgs with
      | nil =>
        have htext : (ch '+' :: c.mcsModes.keys) ++ argsText [] = ch '+' :: c.mcsModes.keys := append_nil _
        rw [htext, token_zero_of_not_mem hletters, token_rest_of_not_mem hletters, splitArgs, dif_pos rfl]
        exact ⟨rfl, rfl⟩
      | cons sArg vs =>
        rw [hv] at hargs
        have hfirst := hargs sArg mem_cons_self
        have htext : (ch '+' :: c.mcsModes.keys) ++ argsText (sArg :: vs) =
            (ch '+' :: c.mcsModes.keys) ++ ch ' ' :: (sArg ++ argsText vs) := rfl
        rw [htext, token_zero_append (cons_ne_nil _ _) hletters, token_rest (cons_ne_nil _ _) hletters,
          (hfirst.start _).2.2, splitArgs_argsText hfirst fun x hx => hargs x (mem_cons_of_mem _ hx)]
        exact ⟨rfl, rfl⟩
    unfold setModesLine modeChangeLine modeChange
    simp only [htokens.1, htokens.2, hcolon, Bool.false_eq_true, if_false, trimPrefix_n]
    exact hloop

/-- **The mode round trip.** In every table that the operations lead to stands no list mode, no permission mode, no '+' and no
'-'; and if its arguments can stand in a line and no letter is a space, `SetModes(GetModeString())` rebuilds it. -/
theorem mode_round_trip (t : ServerTables) (sCurNick : CString) (ops : List ModeOp) :
    (∀ cMode ∈ (runModes t sCurNick ops).mcsModes.keys, ModeKey t cMode) ∧
      (ModesPlain t (runModes t sCurNick ops).mcsModes → ∀ c' : CChan,
        (c'.setModesLine t sCurNick (runModes t sCurNick ops).getModeString).mcsModes =
          (runModes t sCurNick ops).mcsModes) := by
  have hok := run_modesOk t sCurNick ops
  refine ⟨fun cMode hmem => ?_, fun hplain c' => setModes_getModeString hok hplain sCurNick c'⟩
  rw [← find_isSome_iff, Option.isSome_iff_exists] at hmem
  obtain ⟨sArg, hfind⟩ := hmem
  exact hok.key cMode sArg hfind

def withKey : List ModeOp := [.modeChange (lit "+ntk") [lit "key"]]

/-- the modes "+knt key" -/
theorem mode_round_trip_key :
    (CChan.new.setModesLine (.initial []) [] (runModes (.initial []) [] withKey).getModeString).mcsModes =
      (runModes (.initial []) [] withKey).mcsModes := by
  apply (mode_round_trip (.initial []) [] withKey).2
  have hentries : (runModes (.initial []) [] withKey).mcsModes.entries =
      [(ch 'k', lit "key"), (ch 'n', []), (ch 't', [])] := by decide
  have hmem : ∀ cMode sArg, (runModes (.initial []) [] withKey).mcsModes.find cMode = some sArg →
      (cMode, sArg) ∈ [(ch 'k', lit "key"), (ch 'n', []), (ch 't', [])] := by
    intro cMode sArg hfind
    rw [← hentries]
    exact (mem_entries_iff _ cMode sArg).2 hfind
  constructor
  · intro cMode sArg hfind
    have hletter : ∀ e ∈ [(ch 'k', lit "key"), (ch 'n', []), (ch 't', [])], e.1 ≠ ch ' ' := by decide
    exact hletter (cMode, sArg) (hmem cMode sArg hfind)
  · intro cMode sArg hfind htakes
    have harg : ∀ e ∈ [(ch 'k', lit "key"), (ch 'n', []), (ch 't', [])],
        takesArg (.initial []) true e.1 = true → e.2 ≠ [] ∧ ch ' ' ∉ e.2 ∧ e.2.head? ≠ some (ch ':') := by decide
    obtain ⟨hne, hspace, hcolon⟩ := harg (cMode, sArg) (hmem cMode sArg hfind) htakes
    exact ⟨hne, hspace, hcolon⟩

/-- a key with a colon in front loses it, and behind a space among the letters nothing is a letter any more -/
theorem mode_round_trip_fails :
    (CChan.new.setModesLine (.initial []) []
        (runModes (.initial []) [] [.modeChange (lit "+k") [lit ":x"]]).getModeString).mcsModes ≠
      (runModes (.initial []) [] [.modeChange (lit "+k") [lit ":x"]]).mcsModes ∧
    (CChan.new.setModesLine (.initial []) []
        (runModes (.initial []) [] [.modeChange (lit "+n t") []]).getModeString).mcsModes ≠
      (runModes (.initial []) [] [.modeChange (lit "+n t") []]).mcsModes := by
  have hkey : (runModes (.initial []) [] [.modeChange (lit "+k") [lit ":x"]]).getModeString = lit "+k :x" := by decide
  have hspace : (runModes (.initial []) [] [.modeChange (lit "+n t") []]).getModeString = lit "+ nt" := by decide
  have hcolon : splitArgs (lit ":x") = [lit "x"] := by
    rw [splitArgs]
    rfl
  have hplain : PlainArg (lit "nt") := ⟨by decide, by decide, by decide⟩
  have hletters : splitArgs (lit "nt" ++ argsText []) = [lit "nt"] :=
    splitArgs_argsText hplain fun s hs => nomatch hs
  have hwords : (lit "+k :x").token 1 true (ch ' ') false = lit ":x" ∧
      (lit "+ nt").token 1 true (ch ' ') false = lit "nt" ++ argsText [] := by decide
  rw [hkey, hspace]
  unfold setModesLine modeChangeLine
  simp only [hwords.1, hwords.2, hcolon, hletters]
  decide

end ZNC.Chan
