/-
The channel list: names are pairwise different ignoring case, and `FindChan` finds every channel by its own name.

`AddChan(sName)` looks for the name it was given, but the channel takes another one if CHANTYPES asks for a prefix; and
`FindChan` cuts STATUSMSG prefixes off any name, also off one that belongs to the channel.

Model: the network of `JoinedChans`. Without a socket `FindChan` cuts nothing off, as with an empty STATUSMSG. A place of
`m_vChans` stands for a `CChan *`.

Results:
- `listed_iff`: what has to hold of the names;
- `chan_list_iff`: it holds all through a run if and only if every operation meets `OpOk`;
- `added_twice`: a way to lose it.
-/
import ZNC.JoinedChans

namespace ZNC.JoinedChans

open CString Journal List

/-! ## Model -/

instance SameName.decidable : DecidableRel SameName :=
  fun c d => inferInstanceAs (Decidable (c.sName.equals d.sName = true))

namespace CIRCNetwork

/-- the place of a channel by its name, as `MoveChan` and `SwapChans` look for it -/
def placeOf (net : CIRCNetwork) (sChan : CString) : Option ℕ := net.vChans.findIdx? fun chan => chan.sName.equals sChan

def moveChan (net : CIRCNetwork) (sChan : CString) (uIndex : ℕ) : Except CString CIRCNetwork :=
  if net.vChans.length ≤ uIndex then .error (lit "Invalid index")
  else match net.placeOf sChan with
    | none => .error (lit "You are not on " ++ sChan)
    | some it =>
      match net.vChans[it]? with
      | none => .ok net
      | some pChan => .ok { net with vChans := (net.vChans.eraseIdx it).insertIdx uIndex pChan }

def swapChans (net : CIRCNetwork) (sChan1 sChan2 : CString) : Except CString CIRCNetwork :=
  match net.placeOf sChan1 with
  | none => .error (lit "You are not on " ++ sChan1)
  | some it1 =>
    match net.placeOf sChan2 with
    | none => .error (lit "You are not on " ++ sChan2)
    | some it2 =>
      match net.vChans[it1]?, net.vChans[it2]? with
      | some chan1, some chan2 => .ok { net with vChans := (net.vChans.set it1 chan2).set it2 chan1 }
      | _, _ => .ok net

end CIRCNetwork

/-- what changes the channel list, and what changes the tables its names are read with -/
inductive ChanOp where
  | addChan (sName : CString)
  | addChanObject (pChan : CChan)
  | delChan (sName : CString)
  | moveChan (sChan : CString) (uIndex : ℕ)
  | swapChans (sChan1 sChan2 : CString)
  | chanTypes (sValue : CString)
  | statusMsg (sValue : CString)
  /-- the socket is gone, or a new one -/
  | newSocket

namespace CIRCNetwork

def stepChan (net : CIRCNetwork) : ChanOp → CIRCNetwork
  | .addChan sName => net.addChanNamed sName
  | .addChanObject pChan => net.addChan pChan
  | .delChan sName => net.delChan sName
  | .moveChan sChan uIndex => ((net.moveChan sChan uIndex).toOption).getD net
  | .swapChans sChan1 sChan2 => ((net.swapChans sChan1 sChan2).toOption).getD net
  | .chanTypes sValue => { net with sChanPrefixes := sValue }
  | .statusMsg sValue => { net with sStatusMsg := sValue }
  | .newSocket => { net with sStatusMsg := [] }

/-! ## Statement -/

/-- the channels have pairwise different names, and each is found by its own name -/
structure Listed (net : CIRCNetwork) : Prop where
  names : Distinct SameName net.vChans
  found : ∀ pChan chan, net.vChans[pChan]? = some chan → net.findChan chan.sName = some (pChan, chan)

/-- a name that is still the same, ignoring case, without the STATUSMSG prefixes in front -/
def Fits (sStatusMsg sName : CString) : Prop := (sName.trimLeft sStatusMsg).equals sName = true

instance Fits.decidable (sStatusMsg sName : CString) : Decidable (Fits sStatusMsg sName) :=
  inferInstanceAs (Decidable ((sName.trimLeft sStatusMsg).equals sName = true))

/-- what is added has a new name in its final form, and neither it nor a new STATUSMSG make a name begin with its prefixes -/
def OpOk (net : CIRCNetwork) : ChanOp → Prop
  | .addChan sName =>
    sName ≠ [] → net.findChan sName = none →
      (∀ chan ∈ net.vChans, ¬chan.sName.equals (net.chanName sName)) ∧ Fits net.sStatusMsg (net.chanName sName)
  | .addChanObject pChan => (∀ chan ∈ net.vChans, ¬chan.sName.equals pChan.sName) → Fits net.sStatusMsg pChan.sName
  | .statusMsg sValue => ∀ chan ∈ net.vChans, Fits sValue chan.sName
  | _ => True

/-! ## Names -/

theorem fits_of_head {sStatusMsg sName : CString} (h : ∀ c ∈ sName.head?, c ∉ sStatusMsg) : Fits sStatusMsg sName := by
  have hkeep : sName.trimLeft sStatusMsg = sName := by
    cases sName with
    | nil => rfl
    | cons c s => rw [CString.trimLeft, dropWhile_cons_of_neg (by simpa using h c rfl)]
  rw [Fits, hkeep, equals_refl]

theorem listed_iff (net : CIRCNetwork) :
    net.Listed ↔ Distinct SameName net.vChans ∧ ∀ chan ∈ net.vChans, Fits net.sStatusMsg chan.sName := by
  constructor
  · intro h
    refine ⟨h.names, fun chan hchan => ?_⟩
    obtain ⟨pChan, hplace⟩ := mem_iff_getElem?.1 hchan
    exact (findChan_some (h.found pChan chan hplace)).2
  · rintro ⟨hnames, hfits⟩
    refine ⟨hnames, fun pChan chan hplace => ?_⟩
    obtain ⟨hlt, rfl⟩ := List.getElem?_eq_some_iff.1 hplace
    have hself := hfits _ (getElem_mem hlt)
    -- a channel in front would have the same name
    have hfirst : net.vChans.findIdx?
      (fun chan => (net.vChans[pChan].sName.trimLeft net.sStatusMsg).equals chan.sName) =
        some pChan := by
      rw [findIdx?_eq_some_iff_getElem]
      refine ⟨hlt, hself, fun i hi heq => ?_⟩
      exact pairwise_iff_getElem.1 hnames i pChan (hi.trans hlt) hlt hi (sameName_of_equals _ _ heq hself)
    rw [findChan, hfirst, Option.bind_some, hplace, Option.map_some]

variable {net : CIRCNetwork}

/-! ## Operations -/

theorem listed_concat (h : net.Listed) (chan : CChan) :
    ({ net with vChans := net.vChans ++ [chan] } : CIRCNetwork).Listed ↔
      (∀ c ∈ net.vChans, ¬c.sName.equals chan.sName) ∧ Fits net.sStatusMsg chan.sName := by
  obtain ⟨hnames, hfits⟩ := (listed_iff net).1 h
  rw [listed_iff]
  constructor
  · rintro ⟨hdist, hall⟩
    refine ⟨fun c hc => ?_, hall chan (by simp)⟩
    exact (pairwise_append.1 hdist).2.2 c hc chan (mem_singleton.2 rfl)
  · rintro ⟨hnew, hfit⟩
    refine ⟨hnames.concat hnew, fun c hc => ?_⟩
    rcases mem_append.1 hc with hc | hc
    · exact hfits c hc
    · rw [mem_singleton.1 hc]
      exact hfit

theorem listed_perm (h : net.Listed) {vChans : List CChan} (hperm : vChans.Perm net.vChans) :
    ({ net with vChans } : CIRCNetwork).Listed := by
  obtain ⟨hnames, hfits⟩ := (listed_iff net).1 h
  refine (listed_iff _).2 ⟨?_, fun chan hchan => hfits chan (hperm.subset hchan)⟩
  exact (hperm.pairwise_iff fun {c d} hcd hdc => hcd (SameName.symm d c hdc)).2 hnames

theorem moveChan_listed (h : net.Listed) (sChan : CString) (uIndex : ℕ) :
    (net.stepChan (.moveChan sChan uIndex)).Listed := by
  rw [stepChan, moveChan]
  split
  · exact h
  · rename_i hindex
    split
    · exact h
    · rename_i it _
      split
      · exact h
      · rename_i pChan hplace
        obtain ⟨hlt, rfl⟩ := List.getElem?_eq_some_iff.1 hplace
        refine listed_perm h (List.Perm.trans (perm_insertIdx _ _ ?_) (getElem_cons_eraseIdx_perm hlt))
        rw [length_eraseIdx_of_lt hlt]
        omega

theorem swapChans_listed (h : net.Listed) (sChan1 sChan2 : CString) :
    (net.stepChan (.swapChans sChan1 sChan2)).Listed := by
  rw [stepChan, swapChans]
  split
  · exact h
  · split
    · exact h
    · split
      · rename_i chan1 chan2 hplace1 hplace2
        obtain ⟨hlt1, rfl⟩ := List.getElem?_eq_some_iff.1 hplace1
        obtain ⟨hlt2, rfl⟩ := List.getElem?_eq_some_iff.1 hplace2
        exact listed_perm h (set_set_perm hlt1 hlt2)
      · exact h

theorem step_listed_iff (h : net.Listed) (op : ChanOp) : (net.stepChan op).Listed ↔ net.OpOk op := by
  obtain ⟨hnames, hfits⟩ := (listed_iff net).1 h
  cases op with
  | addChan sName =>
    rw [stepChan, addChanNamed, OpOk]
    split
    · rename_i hno
      refine iff_of_true h fun hne hnone => absurd hno ?_
      rw [hnone]
      simpa using hne
    · rename_i hadd
      obtain ⟨hne, hnone⟩ := not_or.1 hadd
      rw [listed_concat h]
      exact ⟨fun hok _ _ => hok, fun hok => hok hne (by simpa using hnone)⟩
  | addChanObject pChan =>
    rw [stepChan, addChan, OpOk]
    split
    · rename_i hany
      refine iff_of_true h fun hnew => ?_
      obtain ⟨c, hc, hsame⟩ := any_eq_true.1 hany
      exact absurd hsame (hnew c hc)
    · rename_i hnew
      have hall : ∀ c ∈ net.vChans, ¬c.sName.equals pChan.sName :=
        fun c hc hsame => hnew (any_eq_true.2 ⟨c, hc, hsame⟩)
      rw [listed_concat h]
      exact ⟨fun hok _ => hok.2, fun hok => ⟨hall, hok hall⟩⟩
  | delChan sName =>
    refine iff_of_true ((listed_iff _).2 ⟨hnames.eraseP _, fun chan hchan => ?_⟩) trivial
    exact hfits chan (mem_of_mem_eraseP hchan)
  | moveChan sChan uIndex => exact iff_of_true (moveChan_listed h sChan uIndex) trivial
  | swapChans sChan1 sChan2 => exact iff_of_true (swapChans_listed h sChan1 sChan2) trivial
  | chanTypes sValue => exact iff_of_true ((listed_iff _).2 ⟨hnames, hfits⟩) trivial
  | statusMsg sValue =>
    rw [stepChan, listed_iff]
    exact ⟨fun hok => hok.2, fun hok => ⟨hnames, hok⟩⟩
  | newSocket =>
    refine iff_of_true ((listed_iff _).2 ⟨hnames, fun chan _ => ?_⟩) trivial
    exact fits_of_head fun c _ => not_mem_nil

/-! ## Runs -/

theorem run_listed_iff (h : net.Listed) (ops : List ChanOp) :
    (∀ past, past <+: ops → (past.foldl stepChan net).Listed) ↔
      Along stepChan (fun _ net op => net.OpOk op) ops net := by
  induction ops generalizing net with
  | nil =>
    refine iff_of_true (fun past hpast => ?_) trivial
    rw [prefix_nil.1 hpast]
    exact h
  | cons op ops ih =>
    rw [Along, ← step_listed_iff h]
    constructor
    · intro hall
      have hstep : (net.stepChan op).Listed := hall [op] (prefix_append [op] ops)
      refine ⟨hstep, (ih hstep).1 fun past hpast => ?_⟩
      exact hall (op :: past) ((prefix_cons_inj op).2 hpast)
    · rintro ⟨hstep, hrest⟩ past hpast
      cases past with
      | nil => exact h
      | cons op' past =>
        obtain ⟨rfl, htail⟩ := cons_prefix_cons.1 hpast
        exact (ih hstep).2 hrest past htail

/-- The channel list of a network stays in order all through a run **if and only if** each operation meets `OpOk`. -/
theorem chan_list_iff (net : CIRCNetwork) (ops : List ChanOp) :
    (∀ past, past <+: ops → (past.foldl stepChan { net with vChans := [] }).Listed) ↔
      Along stepChan (fun _ net op => net.OpOk op) ops { net with vChans := [] } :=
  run_listed_iff ((listed_iff _).2 ⟨.nil, fun _ hchan => absurd hchan not_mem_nil⟩) ops

end CIRCNetwork

/-- **A name added twice** without its prefix: two channels `#foo` -/
theorem added_twice : ¬([ChanOp.addChan (lit "foo"),
    .addChan (lit "foo")].foldl CIRCNetwork.stepChan newNetwork).Listed := by
  intro h
  have hnames := h.names
  revert hnames
  decide

end ZNC.JoinedChans
