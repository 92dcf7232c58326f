/-
The list of `modules/autoattach.cpp`.

An entry names channels, a text and host masks, with `*` for what is left out; one with `!` in front keeps others from
matching. The registry has the text of each entry as a key, so that after the entries of the module's arguments the list
is loaded in the order of these texts, and not in its own.

Model: the registry keeps a key as it is (`ZNC.Registry`). What `OnLoad` saves while it goes through the keys is there
already (`load_registry`). `TryAttach` and List only read the list.

Results:
- `reloads_iff`: the lists that are loaded as they were;
- `del_spec`: what Del removes;
- `autoattach_iff`: the runs in which every list is loaded as it was, and every Del removes the entry of its Add;
- `autoattach_short`: an entry that Del does not find, and two that are loaded the other way round.
-/
import ZNC.ConfigForms
import ZNC.ModuleLine
import ZNC.Lib.Recall
import ZNC.Lib.Runs

namespace ZNC.AutoAttach

open CString Words ModuleLine NetworkClone List

/-! ## Model -/

structure CAttachMatch where
  m_bNegated : Bool
  m_sChannelWildcard : CString
  m_sSearchWildcard : CString
  m_sHostmaskWildcard : CString
deriving DecidableEq

/-- what a line says of an entry -/
structure Parts where
  bNegated : Bool
  sChan : CString
  sSearch : CString
  sHost : CString
deriving DecidableEq

namespace CAttachMatch

def ofParts (p : Parts) : CAttachMatch :=
  ⟨p.bNegated, if p.sChan = [] then lit "*" else p.sChan, if p.sSearch = [] then lit "*" else p.sSearch,
    if p.sHost = [] then lit "*!*@*" else p.sHost⟩

def toString (e : CAttachMatch) : CString :=
  (if e.m_bNegated then lit "!" else []) ++ e.m_sChannelWildcard ++ lit " " ++ e.m_sSearchWildcard ++ lit " " ++
    e.m_sHostmaskWildcard

/-- the same channels, text and host masks -/
def Same (e e' : CAttachMatch) : Prop :=
  e.m_sHostmaskWildcard = e'.m_sHostmaskWildcard ∧ e.m_sChannelWildcard = e'.m_sChannelWildcard ∧
    e.m_sSearchWildcard = e'.m_sSearchWildcard

instance : DecidableRel Same := fun _ _ => inferInstanceAs (Decidable (_ ∧ _ ∧ _))

end CAttachMatch

open CAttachMatch (Same)

/-- the words behind `!`; `bRest` makes the third one all that is left -/
def parts (sMsg : CString) (bRest : Bool) : Parts :=
  let bNegated := sMsg.startsWith (lit "!")
  let sMsg := sMsg.trimPrefix_n (lit "!")
  ⟨bNegated, tok sMsg 0, tok sMsg 1, if bRest then rest sMsg 2 else tok sMsg 2⟩

structure CChanAttach where
  m_vMatches : List CAttachMatch
  m_mssRegistry : MCString
  /-- the lines of `PutModule` -/
  vsModule : VCString

namespace CChanAttach

def putModule (s : CChanAttach) (sLine : CString) : CChanAttach := { s with vsModule := s.vsModule ++ [sLine] }

def setNV (s : CChanAttach) (sName : CString) : CChanAttach :=
  { s with m_mssRegistry := s.m_mssRegistry.insert sName [] }

def add (s : CChanAttach) (p : Parts) : Bool × CChanAttach :=
  let attach := CAttachMatch.ofParts p
  if ∃ it ∈ s.m_vMatches, Same it attach then (false, s)
  else (true, { s with m_vMatches := s.m_vMatches ++ [attach] }.setNV attach.toString)

/-- what `FindEntry` looks for -/
def named (p : Parts) (it : CAttachMatch) : Bool :=
  !(p.sHost = [] || it.m_sHostmaskWildcard ≠ p.sHost) && !(p.sSearch = [] || it.m_sSearchWildcard ≠ p.sSearch) &&
    !(p.sChan = [] || it.m_sChannelWildcard ≠ p.sChan)

def del (s : CChanAttach) (p : Parts) : Bool × CChanAttach :=
  match s.m_vMatches.find? (named p) with
  | none => (false, s)
  | some it =>
    if it.m_bNegated ≠ p.bNegated then (false, s)
    else (true, { s with
      m_vMatches := s.m_vMatches.eraseP (named p), m_mssRegistry := s.m_mssRegistry.erase it.toString })

def saveMatches (s : CChanAttach) : CChanAttach :=
  { s with m_mssRegistry := s.m_vMatches.foldl (fun m it => m.insert it.toString []) .empty }

def usageAdd (s : CChanAttach) : CChanAttach :=
  (s.putModule (lit "Usage: Add [!]<#chan> <search> <host>")).putModule (lit "Wildcards are allowed")

def handleAdd (s : CChanAttach) (sLine : CString) : CChanAttach :=
  let p := parts (rest sLine 1) false
  if p.sChan = [] then s.usageAdd
  else if (s.add p).1 then (s.add p).2.putModule (lit "Added to list")
  else ((s.add p).2.putModule (rest sLine 1 ++ lit " is already added")).usageAdd

def handleDel (s : CChanAttach) (sLine : CString) : CChanAttach :=
  let p := parts (rest sLine 1) false
  if (s.del p).1 then (s.del p).2.putModule (lit "Removed " ++ p.sChan ++ lit " from list")
  else (s.del p).2.putModule (lit "Usage: Del [!]<#chan> <search> <host>")

/-- the two places of a Swap, if it has two -/
def swapped (s : CChanAttach) (sLine : CString) : Option (ℕ × ℕ) :=
  let uIdx1 := (tok sLine 1).toUInt.toNat
  let uIdx2 := (tok sLine 2).toUInt.toNat
  if uIdx1 = 0 ∨ uIdx2 = 0 ∨ s.m_vMatches.length < uIdx1 ∨ s.m_vMatches.length < uIdx2 ∨ uIdx1 = uIdx2 then none
  else some (uIdx1 - 1, uIdx2 - 1)

def handleSwap (s : CChanAttach) (sLine : CString) : CChanAttach :=
  if tok sLine 1 = [] ∨ tok sLine 2 = [] then s.putModule (lit "Usage: Swap <index1> <index2>")
  else
    match s.swapped sLine with
    | none => s.putModule (lit "Invalid indices. Use 1-" ++ uintText s.m_vMatches.length)
    | some (uIdx1, uIdx2) =>
      let a := s.m_vMatches.getD uIdx1 (.ofParts ⟨false, [], [], []⟩)
      let b := s.m_vMatches.getD uIdx2 (.ofParts ⟨false, [], [], []⟩)
      { s with m_vMatches := (s.m_vMatches.set uIdx1 b).set uIdx2 a }.saveMatches.putModule
        (lit "Swapped entries " ++ tok sLine 1 ++ lit " and " ++ tok sLine 2)

/-- an argument of the module -/
def loadArg (s : CChanAttach) (sAdd : CString) : CChanAttach :=
  if (s.add (parts sAdd true)).1 then (s.add (parts sAdd true)).2
  else (s.add (parts sAdd true)).2.putModule (lit "Unable to add [" ++ sAdd ++ lit "]")

def loadKey (s : CChanAttach) (sAdd : CString) : CChanAttach := (s.add (parts sAdd true)).2

/-- `OnLoad(sArgs)`, with the registry there is -/
def onLoad (sArgs : CString) (m_mssRegistry : MCString) : CChanAttach :=
  let s := (sArgs.split (ch ' ') false).foldl loadArg ⟨[], m_mssRegistry, []⟩
  s.m_mssRegistry.keys.foldl loadKey s

end CChanAttach

open CChanAttach

/-- the commands, each with its line -/
inductive Op where
  | add (sLine : CString)
  | del (sLine : CString)
  | swap (sLine : CString)

/-- the module, and what was added by a command -/
structure World where
  s : CChanAttach
  vAdded : List Parts

/-- the module that is loaded for the first time -/
def World.start (sArgs : CString) : World := ⟨.onLoad sArgs .empty, []⟩

def exec (w : World) : Op → World
  | .add sLine =>
    let p := parts (rest sLine 1) false
    ⟨w.s.handleAdd sLine, if p.sChan ≠ [] ∧ (w.s.add p).1 then w.vAdded ++ [p] else w.vAdded⟩
  | .del sLine => { w with s := w.s.handleDel sLine }
  | .swap sLine => { w with s := w.s.handleSwap sLine }

/-! ## Statement -/

/-- the list is loaded as it is -/
def Reloads (sArgs : CString) (w : World) : Prop :=
  (onLoad sArgs w.s.m_mssRegistry).m_vMatches = w.s.m_vMatches

instance (sArgs : CString) (w : World) : Decidable (Reloads sArgs w) := inferInstanceAs (Decidable (_ = _))

/-- a Del with the words of an Add removes the entry that this added, and no other -/
def Removes (w : World) : Op → Prop
  | .del sLine =>
    let p := parts (rest sLine 1) false
    p ∈ w.vAdded → .ofParts p ∈ w.s.m_vMatches →
      (w.s.handleDel sLine).m_vMatches = w.s.m_vMatches.erase (.ofParts p)
  | _ => True

instance (w : World) : (op : Op) → Decidable (Removes w op)
  | .del _ => inferInstanceAs (Decidable (_ → _ → _ = _))
  | .add _ => isTrue trivial
  | .swap _ => isTrue trivial

/-- the entries of the module's arguments -/
def known (sArgs : CString) : List CAttachMatch :=
  ((sArgs.split (ch ' ') false).foldl loadArg ⟨[], .empty, []⟩).m_vMatches

/-- nothing is left out -/
def Full (p : Parts) : Prop := p.sChan ≠ [] ∧ p.sSearch ≠ [] ∧ p.sHost ≠ []

instance (p : Parts) : Decidable (Full p) := inferInstanceAs (Decidable (_ ∧ _ ∧ _))

/-- what a step has to meet -/
def Meets (sArgs : CString) (w : World) : Op → Prop
  | .add sLine =>
    let p := parts (rest sLine 1) false
    p.sChan ≠ [] → (∀ it ∈ w.s.m_vMatches, ¬Same it (.ofParts p)) →
      ∀ it ∈ w.s.m_vMatches, it ∉ known sArgs → it.toString < (CAttachMatch.ofParts p).toString
  | .del sLine =>
    let p := parts (rest sLine 1) false
    .ofParts p ∈ w.s.m_vMatches →
      if Full p then .ofParts p ∉ known sArgs else p ∉ w.vAdded
  | .swap sLine => tok sLine 1 ≠ [] → tok sLine 2 ≠ [] → w.s.swapped sLine = none

/-! ## Texts of entries -/

/-- three words, and no `!` in front that is none -/
structure Sound (e : CAttachMatch) : Prop where
  chan : e.m_sChannelWildcard ≠ [] ∧ ch ' ' ∉ e.m_sChannelWildcard
  search : e.m_sSearchWildcard ≠ [] ∧ ch ' ' ∉ e.m_sSearchWildcard
  host : e.m_sHostmaskWildcard ≠ [] ∧ ch ' ' ∉ e.m_sHostmaskWildcard
  bang : e.m_bNegated = false → e.m_sChannelWildcard.head? ≠ some (ch '!')

theorem startsWith_bang (s : CString) : s.startsWith (lit "!") = true ↔ s.head? = some (ch '!') := by
  rw [startsWith_iff (by decide)]
  cases s with
  | nil => simp [asLower]; decide
  | cons c t =>
    have hlit : (lit "!").asLower = [ch '!'] := by decide
    rw [hlit, asLower, map_cons, cons_prefix_cons, head?_cons, Option.some_inj]
    refine ⟨fun h => ((tolower_eq_iff (by decide)).1 h.1.symm), fun h => ⟨?_, nil_prefix⟩⟩
    rw [h]
    decide

theorem trimPrefix_bang {s : CString} (h : s.head? ≠ some (ch '!')) : s.trimPrefix_n (lit "!") = s := by
  rw [trimPrefix_n, if_neg fun hb => h ((startsWith_bang s).1 hb)]

theorem three_words {c f g : CString} (hc : c ≠ [] ∧ ch ' ' ∉ c) (hf : f ≠ [] ∧ ch ' ' ∉ f) (hg : g ≠ [] ∧ ch ' ' ∉ g) :
    tok (c ++ ch ' ' :: (f ++ ch ' ' :: g)) 0 = c ∧ tok (c ++ ch ' ' :: (f ++ ch ' ' :: g)) 1 = f ∧
      rest (c ++ ch ' ' :: (f ++ ch ' ' :: g)) 2 = g := by
  have hhead : ∀ {w x : CString}, w ≠ [] ∧ ch ' ' ∉ w → (w ++ x).head? ≠ some (ch ' ') := by
    intro w x hw
    rw [head?_append_of_ne_nil _ hw.1]
    exact fun h => hw.2 (mem_of_mem_head? h)
  have hhead' : g.head? ≠ some (ch ' ') := by simpa using hhead (x := []) hg
  obtain ⟨hzero, hrest⟩ := words_append hc.1 hc.2 (hhead hf)
  refine ⟨hzero, ?_, ?_⟩
  · rw [tok_one, hrest, word_append hf.2 hhead']
  · rw [rest_two, hrest, word_append hf.2 hhead']

theorem ofParts_of_ne {p : Parts} (hchan : p.sChan ≠ []) (hsearch : p.sSearch ≠ []) (hhost : p.sHost ≠ []) :
    CAttachMatch.ofParts p = ⟨p.bNegated, p.sChan, p.sSearch, p.sHost⟩ := by
  rw [CAttachMatch.ofParts, if_neg hchan, if_neg hsearch, if_neg hhost]

theorem parse_toString {e : CAttachMatch} (h : Sound e) : CAttachMatch.ofParts (parts e.toString true) = e := by
  obtain ⟨bNegated, sChan, sSearch, sHost⟩ := e
  obtain ⟨hzero, hone, htwo⟩ := three_words h.chan h.search h.host
  set sText := sChan ++ ch ' ' :: (sSearch ++ ch ' ' :: sHost) with hText
  have hstring : CAttachMatch.toString ⟨bNegated, sChan, sSearch, sHost⟩ =
      (if bNegated then lit "!" else []) ++ sText := by
    simp only [CAttachMatch.toString, append_assoc, hText]
    rfl
  have hparts : parts (CAttachMatch.toString ⟨bNegated, sChan, sSearch, sHost⟩) true =
      ⟨bNegated, tok sText 0, tok sText 1, rest sText 2⟩ := by
    rw [hstring]
    cases bNegated with
    | true =>
      rw [if_pos rfl, parts, startsWith_append (by decide), trimPrefix_append (by decide)]
      rfl
    | false =>
      have hbang : sText.head? ≠ some (ch '!') := by
        rw [hText, head?_append_of_ne_nil _ h.chan.1]
        exact h.bang rfl
      have hno : sText.startsWith (lit "!") = false := Bool.eq_false_iff.2 fun hb => hbang ((startsWith_bang _).1 hb)
      rw [if_neg Bool.false_ne_true, nil_append, parts, hno, trimPrefix_bang hbang]
      rfl
  rw [hparts, hzero, hone, htwo]
  exact ofParts_of_ne h.chan.1 h.search.1 h.host.1

theorem toString_inj {e e' : CAttachMatch} (h : Sound e) (h' : Sound e') (heq : e.toString = e'.toString) : e = e' := by
  rw [← parse_toString h, heq, parse_toString h']

theorem sound_default {w d : CString} (hw : ch ' ' ∉ w) (hd : d ≠ [] ∧ ch ' ' ∉ d) :
    (if w = [] then d else w) ≠ [] ∧ ch ' ' ∉ if w = [] then d else w := by
  split
  · exact hd
  · rename_i hne
    exact ⟨hne, hw⟩

/-- **What a line brings** is an entry that can be read back. -/
theorem parts_sound {sMsg : CString} {bRest : Bool} (hhead : sMsg.head? ≠ some (ch ' '))
    (hrest : bRest = true → ch ' ' ∉ sMsg) : Sound (.ofParts (parts sMsg bRest)) where
  chan := sound_default (space_not_mem_tok _ 0) (by decide)
  search := sound_default (space_not_mem_tok _ 1) (by decide)
  host := by
    refine sound_default ?_ (by decide)
    cases bRest with
    | false => exact space_not_mem_tok _ 2
    | true =>
      refine fun hm => hrest rfl ?_
      exact (trimPrefix_suffix sMsg (lit "!")).subset (Config.token_subset _ 2 true (ch ' ') hm)
  bang := by
    intro hneg
    have hbang : sMsg.head? ≠ some (ch '!') := fun hb => by
      have hyes : (parts sMsg bRest).bNegated = true := (startsWith_bang sMsg).2 hb
      exact Bool.noConfusion (hyes.symm.trans hneg)
    have hchan : (parts sMsg bRest).sChan = tok sMsg 0 := by
      rw [parts, trimPrefix_bang hbang]
    have hword : (tok sMsg 0).head? ≠ some (ch '!') := by
      rw [tok_zero, dropWhile_space hhead, word]
      cases hs : sMsg with
      | nil => simp
      | cons c t =>
        have hc : c ≠ ch ' ' := fun hc => hhead (by rw [hs, hc]; rfl)
        rw [takeWhile_cons_of_pos (by simpa using hc), head?_cons]
        rwa [hs, head?_cons] at hbang
    simp only [CAttachMatch.ofParts, hchan]
    split
    · decide
    · exact hword

/-! ## The list and the registry -/

/-- the entries are different, and the registry has their texts besides the keys of `m` -/
structure Inv (m : MCString) (s : CChanAttach) : Prop where
  sound : ∀ e ∈ s.m_vMatches, Sound e
  differ : s.m_vMatches.Pairwise fun e e' => ¬Same e e'
  saved : ∀ k, k ∈ s.m_mssRegistry.keys ↔ k ∈ m.keys ∨ ∃ e ∈ s.m_vMatches, e.toString = k

variable {sArgs : CString} {m : MCString} {s : CChanAttach} {w : World}

theorem Inv.congr {s' : CChanAttach} (h : Inv m s) (hmatches : s'.m_vMatches = s.m_vMatches)
    (hregistry : s'.m_mssRegistry = s.m_mssRegistry) : Inv m s' := by
  refine ⟨?_, ?_, ?_⟩
  · rw [hmatches]
    exact h.sound
  · rw [hmatches]
    exact h.differ
  · rw [hmatches, hregistry]
    exact h.saved

theorem same_refl (e : CAttachMatch) : Same e e := ⟨rfl, rfl, rfl⟩

theorem same_symm (e e' : CAttachMatch) (h : Same e e') : Same e' e := ⟨h.1.symm, h.2.1.symm, h.2.2.symm⟩

theorem Inv.nodup (h : Inv m s) : s.m_vMatches.Nodup :=
  h.differ.imp fun {e e'} hdiff (heq : e = e') => hdiff (heq ▸ same_refl e)

theorem Inv.eq_of_same (h : Inv m s) {e e' : CAttachMatch} (he : e ∈ s.m_vMatches) (he' : e' ∈ s.m_vMatches)
    (hsame : Same e e') : e = e' := by
  by_contra hne
  exact Recall.forall_not_related same_symm h.differ he he' hne hsame

theorem add_matches (s : CChanAttach) (p : Parts) :
    (s.add p).2.m_vMatches = Recall.add Same s.m_vMatches (.ofParts p) := by
  unfold add Recall.add
  dsimp only
  split <;> rfl

theorem add_inv (h : Inv m s) {p : Parts} (hp : Sound (.ofParts p)) :
    Inv m (s.add p).2 := by
  have hdiffer := Recall.pairwise_add h.differ (CAttachMatch.ofParts p)
  rw [← add_matches] at hdiffer
  by_cases hsame : ∃ it ∈ s.m_vMatches, Same it (.ofParts p)
  · rw [add, if_pos hsame]
    exact h
  · rw [add, if_neg hsame] at hdiffer ⊢
    refine ⟨?_, hdiffer, fun k => ?_⟩
    · change ∀ e ∈ s.m_vMatches ++ [_], Sound e
      rw [forall_mem_append, forall_mem_singleton]
      exact ⟨h.sound, hp⟩
    · change k ∈ (s.m_mssRegistry.insert _ _).keys ↔ k ∈ m.keys ∨ ∃ e ∈ s.m_vMatches ++ [_], _
      rw [OrdMap.mem_keys_insert, h.saved]
      simp only [mem_append, mem_singleton, or_and_right, exists_or, exists_eq_left]
      rw [or_left_comm, eq_comm (a := k), or_comm (b := ∃ e ∈ s.m_vMatches, e.toString = k)]

/-! ## Loading -/

theorem loadArg_spec (s : CChanAttach) (sAdd : CString) :
    (s.loadArg sAdd).m_vMatches = (s.add (parts sAdd true)).2.m_vMatches ∧
      (s.loadArg sAdd).m_mssRegistry = (s.add (parts sAdd true)).2.m_mssRegistry := by
  unfold loadArg
  split <;> exact ⟨rfl, rfl⟩

theorem loadArg_inv (h : Inv m s) {sAdd : CString} (hp : Sound (.ofParts (parts sAdd true))) : Inv m (s.loadArg sAdd) :=
  (add_inv h hp).congr (loadArg_spec s sAdd).1 (loadArg_spec s sAdd).2

theorem loadArgs_matches (vsChans : VCString) (s : CChanAttach) : (vsChans.foldl loadArg s).m_vMatches =
    (vsChans.map fun sAdd => .ofParts (parts sAdd true)).foldl (Recall.add Same) s.m_vMatches := by
  induction vsChans generalizing s with
  | nil => rfl
  | cons sAdd vsChans ih =>
    rw [foldl_cons, ih, (loadArg_spec s sAdd).1, add_matches, map_cons, foldl_cons]

theorem loadKeys_matches (vsKeys : VCString) (s : CChanAttach) : (vsKeys.foldl loadKey s).m_vMatches =
    (vsKeys.map fun sAdd => .ofParts (parts sAdd true)).foldl (Recall.add Same) s.m_vMatches := by
  induction vsKeys generalizing s with
  | nil => rfl
  | cons sAdd vsKeys ih => rw [foldl_cons, ih, loadKey, add_matches, map_cons, foldl_cons]

theorem loadArgs_inv (sArgs : CString) (m : MCString) :
    Inv m ((sArgs.split (ch ' ') false).foldl loadArg ⟨[], m, []⟩) := by
  have hsound : ∀ sAdd ∈ sArgs.split (ch ' ') false, Sound (.ofParts (parts sAdd true)) := fun sAdd hmem => by
    have hspace := (mem_split hmem).1
    exact parts_sound (fun hhead => hspace (mem_of_mem_head? hhead)) fun _ => hspace
  have hstart : Inv m ⟨[], m, []⟩ := ⟨fun e he => absurd he List.not_mem_nil, List.Pairwise.nil, fun k => by simp⟩
  generalize (⟨[], m, []⟩ : CChanAttach) = s at hstart
  generalize sArgs.split (ch ' ') false = vsChans at hsound
  induction vsChans generalizing s with
  | nil => exact hstart
  | cons sAdd vsChans ih =>
    rw [forall_mem_cons] at hsound
    exact ih _ (loadArg_inv hstart hsound.1) hsound.2

theorem sound_known {e : CAttachMatch} (h : e ∈ known sArgs) : Sound e :=
  (loadArgs_inv sArgs .empty).sound e h

/-- **What is saved while the keys are gone through** is there already. -/
theorem load_registry {vsKeys : VCString} (hin : ∀ k ∈ vsKeys, k ∈ s.m_mssRegistry.keys)
    (hread : ∀ k ∈ vsKeys, (CAttachMatch.ofParts (parts k true)).toString = k) (k : CString) :
    k ∈ (vsKeys.foldl loadKey s).m_mssRegistry.keys ↔ k ∈ s.m_mssRegistry.keys := by
  induction vsKeys generalizing s with
  | nil => rfl
  | cons sAdd vsKeys ih =>
    rw [forall_mem_cons] at hin hread
    have hkeys : ∀ k, k ∈ (s.loadKey sAdd).m_mssRegistry.keys ↔ k ∈ s.m_mssRegistry.keys := by
      intro k
      unfold loadKey add
      dsimp only
      split
      · rfl
      · change k ∈ (s.m_mssRegistry.insert _ _).keys ↔ _
        rw [OrdMap.mem_keys_insert, hread.1, or_iff_right_of_imp]
        exact fun hk => hk ▸ hin.1
    rw [foldl_cons, ih (fun k hk => (hkeys k).2 (hin.2 k hk)) hread.2, hkeys]

/-- **What is loaded** is a list whose texts are saved exactly if it is in the order of the arguments, and then of the
texts; the registry has no new key but for the arguments. -/
theorem onLoad_spec (sArgs : CString) {l : List CAttachMatch} (hsound : ∀ e ∈ l, Sound e)
    (hdiffer : l.Pairwise fun e e' => ¬Same e e') (hsaved : ∀ k, (k ∈ m.keys ∨ ∃ e ∈ known sArgs, e.toString = k) ↔
      ∃ e, (e ∈ l ∨ e ∈ known sArgs) ∧ e.toString = k) :
    ((onLoad sArgs m).m_vMatches = l ↔ Recall.Kept CAttachMatch.toString (known sArgs) l) ∧
      ∀ k, k ∈ (onLoad sArgs m).m_mssRegistry.keys ↔ ∃ e, (e ∈ l ∨ e ∈ known sArgs) ∧ e.toString = k := by
  set s := (sArgs.split (ch ' ') false).foldl loadArg ⟨[], m, []⟩ with hs
  have hmatches : s.m_vMatches = known sArgs := by
    rw [hs, known, loadArgs_matches, loadArgs_matches]
  have hkeys : ∀ k, k ∈ s.m_mssRegistry.keys ↔ ∃ e, (e ∈ l ∨ e ∈ known sArgs) ∧ e.toString = k := fun k => by
    rw [← hsaved, ← hmatches, hs, (loadArgs_inv sArgs m).saved]
  have hall : ∀ e, e ∈ l ∨ e ∈ known sArgs → Sound e := fun e he => he.elim (hsound e) sound_known
  have hread : ∀ k ∈ s.m_mssRegistry.keys, (CAttachMatch.ofParts (parts k true)).toString = k := fun k hk => by
    obtain ⟨e, he, rfl⟩ := (hkeys k).1 hk
    rw [parse_toString (hall e he)]
  rw [onLoad, ← hs]
  refine ⟨?_, fun k => (load_registry (fun k hk => hk) hread k).trans (hkeys k)⟩
  rw [loadKeys_matches, hmatches]
  refine Recall.recall_eq_iff same_refl same_symm hdiffer ?_ fun e => ?_
  · rw [pairwise_map]
    refine (pairwise_map.2 s.m_mssRegistry.sorted : s.m_mssRegistry.keys.Pairwise (· < ·)).imp_of_mem ?_
    intro k k' hk hk' hlt
    rwa [hread k hk, hread k' hk']
  · rw [mem_map]
    refine ⟨fun hmem => ?_, fun he => ⟨e.toString, (hkeys _).2 ⟨e, he, rfl⟩, parse_toString (hall e he)⟩⟩
    obtain ⟨k, hk, rfl⟩ := hmem
    obtain ⟨e, he, rfl⟩ := (hkeys k).1 hk
    rwa [parse_toString (hall e he)]

theorem Inv.mem_keys (h : Inv .empty s) (k : CString) :
    k ∈ s.m_mssRegistry.keys ↔ ∃ e ∈ s.m_vMatches, e.toString = k := by
  rw [h.saved, or_iff_right]
  exact not_mem_nil

/-- **A list is loaded as it is** exactly if it is in the order of the arguments, and then of the texts. -/
theorem reloads_iff (sArgs : CString) (h : Inv .empty w.s) :
    Reloads sArgs w ↔ Recall.Kept CAttachMatch.toString (known sArgs) w.s.m_vMatches := by
  refine (onLoad_spec sArgs h.sound h.differ fun k => ?_).1
  rw [h.mem_keys]
  simp only [or_and_right, exists_or]

/-! ## Removing -/

theorem named_iff (p : Parts) (it : CAttachMatch) :
    named p it = true ↔ Full p ∧ Same it (.ofParts p) := by
  have hall : named p it = true ↔ (p.sHost ≠ [] ∧ it.m_sHostmaskWildcard = p.sHost) ∧
      (p.sSearch ≠ [] ∧ it.m_sSearchWildcard = p.sSearch) ∧ (p.sChan ≠ [] ∧ it.m_sChannelWildcard = p.sChan) := by
    simp [named, and_assoc]
  rw [hall]
  constructor
  · intro ⟨⟨hhost, h1⟩, ⟨hsearch, h2⟩, ⟨hchan, h3⟩⟩
    rw [ofParts_of_ne hchan hsearch hhost]
    exact ⟨⟨hchan, hsearch, hhost⟩, h1, h3, h2⟩
  · intro ⟨⟨hchan, hsearch, hhost⟩, hsame⟩
    rw [ofParts_of_ne hchan hsearch hhost] at hsame
    exact ⟨⟨hhost, hsame.1⟩, ⟨hsearch, hsame.2.2⟩, ⟨hchan, hsame.2.1⟩⟩

theorem eraseP_congr {α : Type} {p q : α → Bool} {l : List α} (h : ∀ x ∈ l, p x = q x) : l.eraseP p = l.eraseP q := by
  induction l with
  | nil => rfl
  | cons a l ih =>
    rw [forall_mem_cons] at h
    rw [eraseP_cons, eraseP_cons, h.1, ih h.2]

/-- **What Del removes**: the entry of its words, if none is left out and it is there. -/
theorem del_spec (h : Inv m s) (p : Parts) : s.del p =
    if Full p ∧ .ofParts p ∈ s.m_vMatches then (true, { s with
      m_vMatches := s.m_vMatches.erase (.ofParts p),
      m_mssRegistry := s.m_mssRegistry.erase (CAttachMatch.ofParts p).toString })
    else (false, s) := by
  unfold del
  cases hfind : s.m_vMatches.find? (named p) with
  | none =>
    rw [find?_eq_none] at hfind
    rw [if_neg fun hdel => hfind _ hdel.2 ((named_iff p _).2 ⟨hdel.1, same_refl _⟩)]
  | some it =>
    have hmem := mem_of_find?_eq_some hfind
    obtain ⟨hfull, hsame⟩ := (named_iff p it).1 (find?_some hfind)
    dsimp only
    by_cases hneg : it.m_bNegated = p.bNegated
    · have hit : it = .ofParts p := by
        cases it
        rw [CAttachMatch.mk.injEq]
        exact ⟨hneg, hsame.2.1, hsame.2.2, hsame.1⟩
      subst hit
      rw [if_neg (not_not.2 hneg), if_pos ⟨hfull, hmem⟩, erase_eq_eraseP']
      congr 2
      refine eraseP_congr fun x hx => Bool.eq_iff_iff.2 ?_
      rw [named_iff, beq_iff_eq]
      refine ⟨fun hx' => h.eq_of_same hx hmem hx'.2, fun hx' => ⟨hfull, ?_⟩⟩
      rw [hx']
      exact same_refl _
    · rw [if_pos hneg, if_neg fun hdel => hneg ?_]
      rw [h.eq_of_same hmem hdel.2 hsame]
      rfl

theorem del_inv (h : Inv .empty s) (p : Parts) : Inv .empty (s.del p).2 := by
  rw [del_spec h]
  split
  · rename_i hdel
    refine ⟨fun e he => h.sound e (mem_of_mem_erase he), h.differ.sublist erase_sublist, fun k => ?_⟩
    change k ∈ (s.m_mssRegistry.erase _).keys ↔ k ∈ OrdMap.keys .empty ∨ ∃ e ∈ s.m_vMatches.erase _, e.toString = k
    have hnone : ¬k ∈ OrdMap.keys (.empty : MCString) := not_mem_nil
    rw [OrdMap.mem_keys_erase, h.mem_keys, or_iff_right hnone]
    refine ⟨fun hk => ?_, fun hk => ?_⟩
    · obtain ⟨hne, e, he, rfl⟩ := hk
      exact ⟨e, (mem_erase_of_ne fun heq => hne (congrArg _ heq)).2 he, rfl⟩
    · obtain ⟨e, he, rfl⟩ := hk
      have hmem := mem_of_mem_erase he
      refine ⟨fun heq => ?_, e, hmem, rfl⟩
      rw [toString_inj (h.sound e hmem) (h.sound _ hdel.2) heq] at he
      exact h.nodup.not_mem_erase he
  · exact h

/-! ## Commands -/

theorem handleAdd_spec (s : CChanAttach) (sLine : CString) :
    (s.handleAdd sLine).m_vMatches = (if (parts (rest sLine 1) false).sChan = [] then s.m_vMatches
      else Recall.add Same s.m_vMatches (.ofParts (parts (rest sLine 1) false))) ∧
    ∀ m, Inv m s → Inv m (s.handleAdd sLine) := by
  have hsound : Sound (.ofParts (parts (rest sLine 1) false)) :=
    parts_sound (head_rest_one sLine) fun h => Bool.noConfusion h
  unfold handleAdd
  dsimp only
  by_cases hchan : (parts (rest sLine 1) false).sChan = []
  · rw [if_pos hchan, if_pos hchan]
    exact ⟨rfl, fun m h => h.congr rfl rfl⟩
  · rw [if_neg hchan, if_neg hchan, ← add_matches]
    split <;> exact ⟨rfl, fun m h => (add_inv h hsound).congr rfl rfl⟩

theorem handleDel_spec (h : Inv .empty s) (sLine : CString) :
    (s.handleDel sLine).m_vMatches =
      (if Full (parts (rest sLine 1) false) ∧ .ofParts (parts (rest sLine 1) false) ∈ s.m_vMatches then
        s.m_vMatches.erase (.ofParts (parts (rest sLine 1) false)) else s.m_vMatches) ∧
    Inv .empty (s.handleDel sLine) := by
  have hmatches : (s.handleDel sLine).m_vMatches = (s.del (parts (rest sLine 1) false)).2.m_vMatches := by
    unfold handleDel
    dsimp only
    split <;> rfl
  refine ⟨?_, (del_inv h (parts (rest sLine 1) false)).congr hmatches ?_⟩
  · rw [hmatches, del_spec h]
    split <;> rfl
  · unfold handleDel
    dsimp only
    split <;> rfl

theorem swapped_spec {sLine : CString} {i j : ℕ} (h : s.swapped sLine = some (i, j)) :
    i < s.m_vMatches.length ∧ j < s.m_vMatches.length ∧ i ≠ j := by
  unfold swapped at h
  dsimp only at h
  split at h
  · cases h
  · obtain ⟨rfl, rfl⟩ := Prod.mk.inj (Option.some.inj h)
    omega

/-- **A Swap** puts two entries into each other's places, or does nothing. -/
theorem handleSwap_spec (s : CChanAttach) (sLine : CString) :
    ((tok sLine 1 ≠ [] → tok sLine 2 ≠ [] → s.swapped sLine = none) ∧
      (s.handleSwap sLine).m_vMatches = s.m_vMatches ∧ (s.handleSwap sLine).m_mssRegistry = s.m_mssRegistry) ∨
    (tok sLine 1 ≠ [] ∧ tok sLine 2 ≠ [] ∧ ∃ i j, s.swapped sLine = some (i, j) ∧
      ∃ (hi : i < s.m_vMatches.length) (hj : j < s.m_vMatches.length), i ≠ j ∧
        (s.handleSwap sLine).m_vMatches = (s.m_vMatches.set i s.m_vMatches[j]).set j s.m_vMatches[i] ∧
        (s.handleSwap sLine).m_mssRegistry =
          (s.handleSwap sLine).m_vMatches.foldl (fun m it => m.insert it.toString []) .empty) := by
  unfold handleSwap
  by_cases htok : tok sLine 1 = [] ∨ tok sLine 2 = []
  · left
    rw [if_pos htok]
    exact ⟨fun h1 h2 => absurd htok (not_or.2 ⟨h1, h2⟩), rfl, rfl⟩
  · rw [if_neg htok]
    cases hswap : s.swapped sLine with
    | none => exact .inl ⟨fun _ _ => rfl, rfl, rfl⟩
    | some ij =>
      obtain ⟨i, j⟩ := ij
      obtain ⟨hi, hj, hne⟩ := swapped_spec hswap
      right
      refine ⟨(not_or.1 htok).1, (not_or.1 htok).2, i, j, rfl, hi, hj, hne, ?_, rfl⟩
      dsimp only
      rw [getD_eq_getElem?_getD, getD_eq_getElem?_getD, getElem?_eq_getElem hi, getElem?_eq_getElem hj]
      rfl

theorem handleSwap_inv (h : Inv .empty s) (sLine : CString) : Inv .empty (s.handleSwap sLine) := by
  rcases handleSwap_spec s sLine with ⟨-, hmatches, hregistry⟩ | ⟨-, -, i, j, -, hi, hj, -, hmatches, hregistry⟩
  · exact h.congr hmatches hregistry
  · have hperm : ((s.handleSwap sLine).m_vMatches).Perm s.m_vMatches := by
      rw [hmatches]
      exact set_set_perm hi hj
    refine ⟨fun e he => h.sound e (hperm.mem_iff.1 he), ?_, fun k => ?_⟩
    · exact hperm.symm.pairwise h.differ fun {e e'} hdiff hsame => hdiff (same_symm _ _ hsame)
    · rw [hregistry, OrdMap.mem_keys_foldl_insert]

/-! ## Runs -/

/-- the list is in order -/
structure Ready (sArgs : CString) (w : World) : Prop where
  inv : Inv .empty w.s
  kept : Recall.Kept CAttachMatch.toString (known sArgs) w.s.m_vMatches

theorem exec_inv (h : Inv .empty w.s) (op : Op) : Inv .empty (exec w op).s := by
  cases op with
  | add sLine => exact (handleAdd_spec w.s sLine).2 _ h
  | del sLine => exact (handleDel_spec h sLine).2
  | swap sLine => exact handleSwap_inv h sLine

theorem add_iff (h : Ready sArgs w) (sLine : CString) :
    Recall.Kept CAttachMatch.toString (known sArgs) (exec w (.add sLine)).s.m_vMatches ↔ Meets sArgs w (.add sLine) := by
  rw [exec, (handleAdd_spec w.s sLine).1, Meets]
  by_cases hchan : (parts (rest sLine 1) false).sChan = []
  · rw [if_pos hchan]
    exact iff_of_true h.kept fun hne => absurd hchan hne
  · rw [if_neg hchan, Recall.add]
    by_cases hsame : ∃ it ∈ w.s.m_vMatches, Same it (.ofParts (parts (rest sLine 1) false))
    · obtain ⟨it, hmem, heq⟩ := hsame
      rw [if_pos ⟨it, hmem, heq⟩]
      exact iff_of_true h.kept fun _ hno => absurd heq (hno it hmem)
    · rw [if_neg hsame, Recall.kept_append_iff h.kept h.inv.nodup]
      exact ⟨fun hlast _ _ => hlast, fun hlast => hlast hchan fun it hmem heq => hsame ⟨it, hmem, heq⟩⟩

theorem del_iff (h : Ready sArgs w) (sLine : CString) :
    (Recall.Kept CAttachMatch.toString (known sArgs) (exec w (.del sLine)).s.m_vMatches ∧ Removes w (.del sLine)) ↔
      Meets sArgs w (.del sLine) := by
  rw [exec, Removes, Meets]
  dsimp only
  rw [(handleDel_spec h.inv sLine).1]
  generalize parts (rest sLine 1) false = p
  by_cases hmem : .ofParts p ∈ w.s.m_vMatches
  · by_cases hfull : Full p
    · rw [if_pos ⟨hfull, hmem⟩, if_pos hfull, Recall.kept_erase_iff h.kept h.inv.nodup]
      exact ⟨fun hnew _ => hnew.1, fun hnew => ⟨hnew hmem, fun _ _ => rfl⟩⟩
    · rw [if_neg fun hdel => hfull hdel.1, if_neg hfull]
      refine ⟨fun hkept _ hadded => ?_, fun hno => ⟨h.kept, fun hadded _ => absurd hadded (hno hmem)⟩⟩
      have hgone := h.inv.nodup.not_mem_erase (a := .ofParts p)
      rw [← hkept.2 hadded hmem] at hgone
      exact hgone hmem
  · rw [if_neg fun hdel => hmem hdel.2]
    exact iff_of_true ⟨h.kept, fun _ hin => absurd hin hmem⟩ fun hin => absurd hin hmem

theorem swap_iff (h : Ready sArgs w) (sLine : CString) :
    Recall.Kept CAttachMatch.toString (known sArgs) (exec w (.swap sLine)).s.m_vMatches ↔
      Meets sArgs w (.swap sLine) := by
  rw [exec, Meets]
  rcases handleSwap_spec w.s sLine with ⟨hnone, hmatches, -⟩ | ⟨h1, h2, i, j, hswap, hi, hj, hne, hmatches, -⟩
  · rw [hmatches]
    exact iff_of_true h.kept hnone
  · rw [hmatches]
    refine iff_of_false (Recall.not_kept_swap h.kept h.inv.nodup hi hj hne) fun hnone => ?_
    rw [hnone h1 h2] at hswap
    cases hswap

/-- **One command** keeps the order, and removes what it should, exactly if it meets the condition. -/
theorem exec_iff (h : Ready sArgs w) (op : Op) :
    (Recall.Kept CAttachMatch.toString (known sArgs) (exec w op).s.m_vMatches ∧ Removes w op) ↔ Meets sArgs w op := by
  cases op with
  | add sLine => exact (and_iff_left trivial).trans (add_iff h sLine)
  | del sLine => exact del_iff h sLine
  | swap sLine => exact (and_iff_left trivial).trans (swap_iff h sLine)

theorem start_ready (sArgs : CString) : Ready sArgs (.start sArgs) := by
  have hknown : Inv .empty ((sArgs.split (ch ' ') false).foldl loadArg ⟨[], .empty, []⟩) :=
    loadArgs_inv sArgs .empty
  have hkept : Recall.Kept CAttachMatch.toString (known sArgs) (known sArgs) :=
    ⟨[], (append_nil _).symm, List.Pairwise.nil⟩
  have hnone : ∀ k, k ∉ OrdMap.keys (.empty : MCString) := fun k => not_mem_nil
  obtain ⟨hmatches, hkeys⟩ := onLoad_spec sArgs (m := .empty) hknown.sound hknown.differ fun k => by
    rw [or_iff_right (hnone k)]
    simp only [known, or_self]
  have hlist := hmatches.2 hkept
  refine ⟨⟨?_, ?_, fun k => ?_⟩, ?_⟩
  · rw [World.start, hlist]
    exact hknown.sound
  · rw [World.start, hlist]
    exact hknown.differ
  · rw [World.start, hlist, hkeys, or_iff_right (hnone k)]
    simp only [known, or_self]
  · rw [World.start, hlist]
    exact hkept

/-- **The runs in which every list is loaded as it was, and every Del removes the entry of its Add.** -/
theorem autoattach_iff (sArgs : CString) (ops : List Op) :
    (Runs.States exec (Reloads sArgs) ops (.start sArgs) ∧ Runs.Steps exec Removes ops (.start sArgs)) ↔
      Runs.Steps exec (Meets sArgs) ops (.start sArgs) := by
  have htrue : Runs.Steps exec (fun _ _ => True) ops (.start sArgs) := Runs.steps_iff.2 fun _ _ _ _ => trivial
  have hgood : ∀ w, Ready sArgs w → Reloads sArgs w := fun w h => (reloads_iff sArgs h.inv).2 h.kept
  refine Runs.keeps_iff hgood ?_ ?_ ops (start_ready sArgs) htrue
  · intro w op h _ hmeets
    obtain ⟨hkept, hremoves⟩ := (exec_iff h op).2 hmeets
    exact ⟨⟨exec_inv h.inv op, hkept⟩, hremoves⟩
  · exact fun w op h _ hreloads hremoves =>
      (exec_iff h op).1 ⟨(reloads_iff sArgs (exec_inv h.inv op)).1 hreloads, hremoves⟩

/-- **An entry with parts left out** is not removed by the words that added it, and two entries are loaded the other way
round. -/
theorem autoattach_short :
    ¬Removes (exec (.start []) (.add (lit "Add #a"))) (.del (lit "Del #a")) ∧
      ¬Reloads [] (exec (exec (.start []) (.add (lit "Add #b * *!*@*"))) (.add (lit "Add #a * *!*@*"))) := by
  refine ⟨by decide +kernel, by decide +kernel⟩

end ZNC.AutoAttach
