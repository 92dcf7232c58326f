/-
The nick table of a channel under every order of the operations on it.

The table is keyed by nick, and the value holds the nick too. `AddNick` changes an entry in its place or writes one under the
nick of the value; `ChangeNick` writes the entry under the new nick and then erases the one under the old nick.

Results:
- `run_keyed`: every entry stands under its own nick, whatever was done to the table;
- `rename_iff`: `ChangeNick` renames, exactly if the new nick is not the old one of a nick in the table;
- `rename_loses`: a nick that is renamed to itself is gone.
-/
import ZNC.Chan

namespace ZNC.Chan

open CString Chan.CChan

/-! ## Runs -/

/-- the operations on the nicks of a channel -/
inductive NickOp where
  | addNick (sNick : CString)
  | addNicks (sNicks : CString)
  | remNick (sNick : CString)
  | modeChange (sModes : CString) (vsModes : VCString)
  | changeNick (sOldNick sNewNick : CString)
deriving DecidableEq

/-- an operation, under the server's tables and ZNC's nick of that time -/
structure NickStep where
  tables : ServerTables
  sCurNick : CString
  op : NickOp

def NickOp.exec (t : ServerTables) (sCurNick : CString) (c : CChan) : NickOp → CChan
  | .addNick sNick => (c.addNick t sCurNick sNick).1
  | .addNicks sNicks => c.addNicks t sCurNick sNicks
  | .remNick sNick => c.remNick sNick
  | .modeChange sModes vsModes => c.modeChange t sCurNick sModes vsModes
  | .changeNick sOldNick sNewNick => (c.changeNick sOldNick sNewNick).1

def run (c : CChan) (steps : List NickStep) : CChan := steps.foldl (fun c s => s.op.exec s.tables s.sCurNick c) c

/-! ## Every entry under its own nick -/

/-- every entry stands under its own nick -/
def Keyed (c : CChan) : Prop := ∀ sNick n, c.findNick sNick = some n → n.sNick = sNick

theorem keyed_new : Keyed .new := by
  intro sNick n h
  rw [findNick, CChan.new, OrdMap.find_empty] at h
  cases h

variable {c : CChan}

theorem Keyed.congr {c' : CChan} (h : Keyed c) (hnicks : c'.msNicks = c.msNicks) : Keyed c' := by
  intro sNick n hn
  rw [findNick, hnicks] at hn
  exact h sNick n hn

theorem entered_own (h : Keyed c) (t : ServerTables) (sNick : CString)
    (hfound : (c.findNick (entryNick t sNick)).isSome) : (c.entered t sNick).sNick = entryNick t sNick := by
  obtain ⟨n, hn⟩ := Option.isSome_iff_exists.1 hfound
  rw [(entered_spec t c sNick).1, entryFrom, hn]
  exact h _ _ hn

theorem addNick_find (h : Keyed c) {t : ServerTables} {sNick : CString}
    (hsome : ¬(entryPrefix t sNick ≠ [] ∧ entryMask t sNick = [])) (sCurNick k : CString) :
    (c.addNick t sCurNick sNick).1.findNick k =
      if k = (c.entered t sNick).sNick then some (c.entered t sNick) else c.findNick k := by
  rw [addNick_eq hsome, findNick, OrdMap.find_insert]
  by_cases hfound : (c.findNick (entryNick t sNick)).isSome
  · rw [if_pos hfound, entered_own h t sNick hfound, OrdMap.find_insert]
    split_ifs <;> rfl
  · rw [if_neg hfound]
    split_ifs <;> rfl

theorem addNick_keyed (h : Keyed c) (t : ServerTables) (sCurNick sNick : CString) :
    Keyed (c.addNick t sCurNick sNick).1 := by
  by_cases hnothing : entryPrefix t sNick ≠ [] ∧ entryMask t sNick = []
  · rw [addNick, if_pos hnothing]
    exact h
  · intro k n hn
    rw [addNick_find h hnothing] at hn
    split_ifs at hn with hk
    · rw [← Option.some_inj.1 hn, hk]
    · exact h k n hn

theorem addNicks_keyed (h : Keyed c) (t : ServerTables) (sCurNick sNicks : CString) :
    Keyed (c.addNicks t sCurNick sNicks) := by
  unfold addNicks
  induction sNicks.split (ch ' ') false generalizing c with
  | nil => exact h
  | cons sNick vsNicks ih => exact ih (addNick_keyed h t sCurNick sNick)

theorem remNick_keyed (h : Keyed c) (sNick : CString) : Keyed (c.remNick sNick) := by
  intro sNick' n hn
  rw [findNick, remNick, OrdMap.find_erase] at hn
  split_ifs at hn
  exact h sNick' n hn

theorem permMode_keyed (h : Keyed c) (t : ServerTables) (sCurNick : CString) (bAdd : Bool) (cMode : UInt8)
    (sArg : CString) : Keyed (c.permMode t sCurNick bAdd cMode sArg) := by
  cases hfind : c.findNick sArg with
  | none =>
    rw [permMode_eq_self (.inl hfind)]
    exact h
  | some n =>
    by_cases hperm : t.getPermFromMode cMode = 0
    · rw [permMode_eq_self (.inr hperm)]
      exact h
    · rw [permMode_eq hfind hperm]
      intro k n' hn'
      rw [findNick, OrdMap.find_insert] at hn'
      split_ifs at hn' with hk
      · rw [← Option.some_inj.1 hn', hk, addPerm_eq]
        exact h sArg n hfind
      · rw [← Option.some_inj.1 hn', hk]
        exact h sArg n hfind
      · exact h k n' hn'

theorem modeChange_keyed (h : Keyed c) (t : ServerTables) (sCurNick sModes : CString) (vsModes : VCString) :
    Keyed (c.modeChange t sCurNick sModes vsModes) := by
  unfold modeChange
  apply modeLoop_inv
  · intro c bAdd cMode sArg hc
    exact permMode_keyed hc t sCurNick bAdd cMode sArg
  · intro c bAdd cMode sArg hc
    exact hc.congr (chanMode_frame t c bAdd cMode sArg).1
  · exact h

theorem changeNick_keyed (h : Keyed c) (sOldNick sNewNick : CString) :
    Keyed (c.changeNick sOldNick sNewNick).1 := by
  cases hfind : c.findNick sOldNick with
  | none =>
    rw [changeNick, hfind]
    exact h
  | some n =>
    intro sNick n' hn
    rw [changeNick_find hfind] at hn
    split_ifs at hn with hold hnew
    · rw [← Option.some_inj.1 hn, hnew]
    · exact h sNick n' hn

theorem exec_keyed (h : Keyed c) (t : ServerTables) (sCurNick : CString) (op : NickOp) :
    Keyed (op.exec t sCurNick c) := by
  cases op with
  | addNick sNick => exact addNick_keyed h t sCurNick sNick
  | addNicks sNicks => exact addNicks_keyed h t sCurNick sNicks
  | remNick sNick => exact remNick_keyed h sNick
  | modeChange sModes vsModes => exact modeChange_keyed h t sCurNick sModes vsModes
  | changeNick sOldNick sNewNick => exact changeNick_keyed h sOldNick sNewNick

theorem run_keyed (h : Keyed c) (steps : List NickStep) : Keyed (run c steps) := by
  induction steps generalizing c with
  | nil => exact h
  | cons s steps ih => exact ih (exec_keyed h s.tables s.sCurNick s.op)

/-! ## Renames -/

/-- `c'` is `c` with `sOldNick` renamed to `sNewNick` -/
structure Renamed (c c' : CChan) (sOldNick sNewNick : CString) : Prop where
  /-- the nicks are the image of the nicks before -/
  nicks : ∀ sNick, sNick ∈ c'.msNicks.keys ↔
    ∃ sFrom ∈ c.msNicks.keys, (if sFrom = sOldNick then sNewNick else sFrom) = sNick
  /-- the renamed nick keeps everything else -/
  entry : ∀ n, c.findNick sOldNick = some n → c'.findNick sNewNick = some { n with sNick := sNewNick }
  others : ∀ sNick, sNick ≠ sOldNick → sNick ≠ sNewNick → c'.findNick sNick = c.findNick sNick
  same : sOldNick = sNewNick → c' = c

theorem mem_keys_iff (c : CChan) (sNick : CString) : sNick ∈ c.msNicks.keys ↔ (c.findNick sNick).isSome := by
  rw [findNick, OrdMap.find_isSome_iff]

theorem renamed_of_absent {sOldNick : CString} (h : c.findNick sOldNick = none) (sNewNick : CString) :
    Renamed c (c.changeNick sOldNick sNewNick).1 sOldNick sNewNick := by
  have hsame : (c.changeNick sOldNick sNewNick).1 = c := by rw [changeNick, h]
  have hnot : sOldNick ∉ c.msNicks.keys := by
    rw [mem_keys_iff, h]
    exact Bool.false_ne_true
  rw [hsame]
  have hne : ∀ sNick ∈ c.msNicks.keys, sNick ≠ sOldNick := by
    intro sNick hk h0
    rw [h0] at hk
    exact hnot hk
  refine ⟨fun sNick => ⟨fun hk => ⟨sNick, hk, if_neg (hne sNick hk)⟩, fun hk => ?_⟩, ?_, fun _ _ _ => rfl, fun _ => rfl⟩
  · obtain ⟨sFrom, hfrom, hto⟩ := hk
    rw [if_neg (hne sFrom hfrom)] at hto
    rw [← hto]
    exact hfrom
  · intro n hn
    rw [h] at hn
    cases hn

theorem renamed_of_ne {sOldNick sNewNick : CString} {n : CNick} (h : c.findNick sOldNick = some n)
    (hne : sOldNick ≠ sNewNick) : Renamed c (c.changeNick sOldNick sNewNick).1 sOldNick sNewNick := by
  have hfind := changeNick_find h sNewNick
  have hold : sOldNick ∈ c.msNicks.keys := by
    rw [mem_keys_iff, h]
    rfl
  refine ⟨fun sNick => ?_, ?_, ?_, fun h0 => absurd h0 hne⟩
  · rw [mem_keys_iff, hfind]
    by_cases h1 : sNick = sOldNick
    · rw [if_pos h1]
      refine ⟨fun h0 => absurd h0 Bool.false_ne_true, fun hk => ?_⟩
      obtain ⟨sFrom, -, hto⟩ := hk
      split_ifs at hto with h2
      · exact absurd (h1.symm.trans hto.symm) hne
      · exact absurd (hto.trans h1) h2
    · by_cases h2 : sNick = sNewNick
      · rw [if_neg h1, if_pos h2]
        exact ⟨fun _ => ⟨sOldNick, hold, by rw [if_pos rfl, h2]⟩, fun _ => rfl⟩
      · rw [if_neg h1, if_neg h2, ← mem_keys_iff]
        refine ⟨fun hk => ⟨sNick, hk, if_neg h1⟩, fun hk => ?_⟩
        obtain ⟨sFrom, hfrom, hto⟩ := hk
        split_ifs at hto with h3
        · exact absurd hto.symm h2
        · rw [← hto]
          exact hfrom
  · intro n' hn'
    rw [h] at hn'
    rw [hfind, if_neg (Ne.symm hne), if_pos rfl, Option.some_inj.1 hn']
  · intro sNick h1 h2
    rw [hfind, if_neg h1, if_neg h2]

/-- **Renaming in a nick table.** In every table that the operations lead to, each entry stands under its own nick, and
`ChangeNick` renames exactly if the new nick is not the old one of a nick in the table. -/
theorem rename_iff (steps : List NickStep) :
    Keyed (run .new steps) ∧
      ∀ sOldNick sNewNick, Renamed (run .new steps)
        ((run .new steps).changeNick sOldNick sNewNick).1 sOldNick sNewNick ↔
        (sOldNick ≠ sNewNick ∨ (run .new steps).findNick sOldNick = none) := by
  refine ⟨run_keyed keyed_new steps, fun sOldNick sNewNick => ?_⟩
  generalize run .new steps = c
  cases hfind : c.findNick sOldNick with
  | none => exact ⟨fun _ => .inr rfl, fun _ => renamed_of_absent hfind sNewNick⟩
  | some n =>
    constructor
    · intro h
      left
      intro h0
      have hgone := changeNick_find hfind sNewNick sOldNick
      rw [if_pos rfl, h.same h0, hfind] at hgone
      cases hgone
    · intro h
      rcases h with h | h
      · exact renamed_of_ne hfind h
      · cases h

/-- a table with the nick `me`, which is renamed to itself -/
theorem rename_loses :
    (run .new [⟨.initial [], lit "me", .addNick (lit "me")⟩]).findNick (lit "me") ≠ none ∧
      (run .new [⟨.initial [], lit "me", .addNick (lit "me")⟩,
        ⟨.initial [], lit "me", .changeNick (lit "me") (lit "me")⟩]).findNick (lit "me") = none ∧
      ¬ Renamed (run .new [⟨.initial [], lit "me", .addNick (lit "me")⟩])
        (run .new [⟨.initial [], lit "me", .addNick (lit "me")⟩,
          ⟨.initial [], lit "me", .changeNick (lit "me") (lit "me")⟩]) (lit "me") (lit "me") := by
  have hbefore : (run .new [⟨.initial [], lit "me", .addNick (lit "me")⟩]).findNick (lit "me") ≠ none := by decide
  have hafter : (run .new [⟨.initial [], lit "me", .addNick (lit "me")⟩,
      ⟨.initial [], lit "me", .changeNick (lit "me") (lit "me")⟩]).findNick (lit "me") = none := by decide
  refine ⟨hbefore, hafter, fun h => ?_⟩
  rw [h.same rfl] at hafter
  exact hbefore hafter

end ZNC.Chan
