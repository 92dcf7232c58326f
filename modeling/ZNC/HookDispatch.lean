/-
The dispatch of a hook: the macros MODUNLOADCHK and MODHALTCHK of `src/Modules.cpp`, and `CModules::UnloadModule`.

The loop goes over the list by its position, up to the length that the list had at the start, and UnloadModule removes a module from
the list under the loop.

Model: `handlers` has the modules whose unloading a global module handles (as those for Perl and Python do), and whether the module
is gone then. An exception is UNLOAD or any other. Reading behind the end of the list has no result. `visited` has the names of the
modules that were called, in order.

Results:
- `run_returned`, `run_unload`, `run_other`: what the call of one module does;
- `run_good`, `run_exact`: the modules that are left, from any position;
- `dispatch_iff`: a hook is dispatched as it should be exactly if every module that is reached meets `Harmless`;
- `unload_skips`: a module is passed over, and the end of the list is read over.
-/
import ZNC.CString

namespace ZNC.HookDispatch

open CString List

/-! ## Model -/

inductive EModRet where
  | CONTINUE
  | HALT
  | HALTMODS
  | HALTCORE
deriving DecidableEq

/-- how the call of a module ends -/
inductive Outcome (α : Type) where
  | returned (e : α)
  | unload
  | otherException
deriving DecidableEq

/-- the user, the network and the client of a list, or of a module -/
structure Context where
  m_pUser : Option ℕ
  m_pNetwork : Option ℕ
  m_pClient : Option ℕ
deriving DecidableEq

structure CModule extends Context where
  m_sModName : CString
  m_pDLL : Bool
deriving DecidableEq

namespace CModule

/-- the name as `FindModule` compares it -/
def key (m : CModule) : CString := m.m_sModName.cStr.asLower

/-- the context that a module gets for the call -/
def enter (c : Context) (pMod : CModule) : CModule :=
  { pMod with
    m_pClient := c.m_pClient
    m_pUser := if c.m_pUser.isSome then c.m_pUser else pMod.m_pUser
    m_pNetwork := if c.m_pNetwork.isSome then c.m_pNetwork else pMod.m_pNetwork }

/-- what is set back after the call; `pOld` is the module before it -/
def leave (c : Context) (pMod pOld : CModule) : CModule :=
  { pMod with
    m_pUser := if c.m_pUser.isSome then pOld.m_pUser else pMod.m_pUser
    m_pNetwork := if c.m_pNetwork.isSome then pOld.m_pNetwork else pMod.m_pNetwork
    m_pClient := pOld.m_pClient }

end CModule

/-- the modules of the core, of a user or of a network; no two have one name -/
structure CModules extends Context where
  mods : List CModule
  unique : (mods.map CModule.key).Nodup

def findModule (mods : List CModule) (sModule : CString) : Option CModule :=
  mods.find? fun pMod => sModule.equals pMod.m_sModName

def unloadModule (handlers : CString → Option Bool) (mods : List CModule) (sModule : CString) : List CModule :=
  match findModule mods sModule with
  | none => mods
  | some pModule =>
    match handlers pModule.m_sModName with
    | some bGone => if bGone then mods.erase pModule else mods
    | none => if pModule.m_pDLL then mods.erase pModule else mods

/-- the state of the loop -/
structure Call where
  mods : List CModule
  visited : List CString
  bHaltCore : Bool
deriving DecidableEq

/-- the loop: `todo` positions are left, the next one is `i` -/
def run (c : Context) (handlers : CString → Option Bool) (f : CString → Outcome EModRet) : ℕ → ℕ → Call → Option Call
  | 0, _, s => some s
  | todo + 1, i, s =>
    match s.mods[i]? with
    | none => none
    | some pMod =>
      let sModName := pMod.m_sModName
      match f sModName with
      | .returned e =>
        let s := { s with mods := s.mods.set i ((pMod.enter c).leave c pMod), visited := s.visited ++ [sModName] }
        match e with
        | .HALTMODS => some s
        | .HALTCORE => run c handlers f todo (i + 1) { s with bHaltCore := true }
        | .HALT => some { s with bHaltCore := true }
        | .CONTINUE => run c handlers f todo (i + 1) s
      | .unload =>
        -- the context is not set back
        let mods := unloadModule handlers (s.mods.set i (pMod.enter c)) sModName
        run c handlers f todo (i + 1) { s with mods := mods, visited := s.visited ++ [sModName] }
      | .otherException =>
        run c handlers f todo (i + 1) { s with mods := s.mods.set i (pMod.enter c), visited := s.visited ++ [sModName] }

def modHaltChk (handlers : CString → Option Bool) (f : CString → Outcome EModRet) (ms : CModules) : Option Call :=
  run ms.toContext handlers f ms.mods.length 0 ⟨ms.mods, [], false⟩

/-- a hook without a value always goes on -/
def voidHook (f : CString → Outcome Unit) (sModName : CString) : Outcome EModRet :=
  match f sModName with
  | .returned () => .returned .CONTINUE
  | .unload => .unload
  | .otherException => .otherException

def modUnloadChk (handlers : CString → Option Bool) (f : CString → Outcome Unit) (ms : CModules) : Option Call :=
  modHaltChk handlers (voidHook f) ms

/-! ## How a hook should be dispatched -/

/-- HALT or HALTMODS -/
def Outcome.Stops (o : Outcome EModRet) : Prop := o = .returned .HALT ∨ o = .returned .HALTMODS

def Outcome.Halts (o : Outcome EModRet) : Prop := o = .returned .HALT ∨ o = .returned .HALTCORE

instance (o : Outcome EModRet) : Decidable o.Stops := inferInstanceAs (Decidable (_ ∨ _))

/-- the modules up to and including the first one that stops -/
def upToStop (f : CString → Outcome EModRet) : List CString → List CString
  | [] => []
  | n :: ns => n :: if (f n).Stops then [] else upToStop f ns

/-- what a hook should do with the modules -/
structure Good (f : CString → Outcome EModRet) (mods : List CModule) (r : Call) : Prop where
  visited : r.visited = upToStop f (mods.map CModule.m_sModName)
  halt : r.bHaltCore = true ↔ ∃ n ∈ r.visited, (f n).Halts
  removed : ∀ m ∈ mods, (∃ m' ∈ r.mods, m'.m_sModName = m.m_sModName) ↔
    ¬ (m.m_sModName ∈ r.visited ∧ f m.m_sModName = .unload)
  context : ∀ m ∈ r.mods, m ∈ mods

/-- UnloadModule removes the module -/
def Unloads (handlers : CString → Option Bool) (m : CModule) : Prop := (handlers m.m_sModName).getD m.m_pDLL = true

/-- a module that throws UNLOAD is the last one of the list, and can be unloaded; and one that throws something else has the context of
the call already -/
structure Harmless (c : Context) (handlers : CString → Option Bool) (f : CString → Outcome EModRet) (m : CModule)
    (after : List CModule) : Prop where
  unload : f m.m_sModName = .unload → after = [] ∧ Unloads handlers m
  other : f m.m_sModName = .otherException → m.enter c = m

/-- every module that is reached is harmless -/
def Meets (c : Context) (handlers : CString → Option Bool) (f : CString → Outcome EModRet)
    (mods : List CModule) : Prop :=
  ∀ before m after, mods = before ++ m :: after → (∀ m' ∈ before, ¬ (f m'.m_sModName).Stops) →
    Harmless c handlers f m after

/-! ## The call of one module -/

variable {c : Context} {handlers : CString → Option Bool} {f : CString → Outcome EModRet}
variable {done rest : List CModule} {m : CModule} {vis : List CString} {b : Bool} {todo : ℕ}

@[simp] theorem key_enter : (m.enter c).key = m.key := rfl

@[simp] theorem leave_enter : (m.enter c).leave c m = m := by
  unfold CModule.leave CModule.enter
  split_ifs <;> rfl

theorem getElem_done (done rest : List CModule) (m : CModule) : (done ++ m :: rest)[done.length]? = some m := by simp

theorem set_done (done rest : List CModule) (m m' : CModule) :
    (done ++ m :: rest).set done.length m' = done ++ m' :: rest := by
  simp

theorem findModule_done (hunique : ((done ++ m :: rest).map CModule.key).Nodup) :
    findModule (done ++ m :: rest) m.m_sModName = some m := by
  have hnone : done.find? (fun pMod => m.m_sModName.equals pMod.m_sModName) = none := by
    rw [find?_eq_none]
    intro p hp hequals
    rw [map_append, nodup_append] at hunique
    have hsame : m.key = p.key := by simpa [equals, CModule.key] using hequals
    exact hunique.2.2 p.key (mem_map_of_mem hp) m.key (by simp) hsame.symm
  rw [findModule, find?_append, hnone, Option.none_or, find?_cons_of_pos (by simp [equals])]

theorem erase_done (hunique : ((done ++ m :: rest).map CModule.key).Nodup) :
    (done ++ m :: rest).erase m = done ++ rest := by
  have hout : m ∉ done := fun hm => by
    rw [map_append, nodup_append] at hunique
    exact hunique.2.2 m.key (mem_map_of_mem hm) m.key (by simp) rfl
  rw [erase_append_right _ hout, erase_cons_head]

theorem unloadModule_done (handlers : CString → Option Bool) (hunique : ((done ++ m :: rest).map CModule.key).Nodup) :
    (Unloads handlers m → unloadModule handlers (done ++ m :: rest) m.m_sModName = done ++ rest) ∧
      (¬ Unloads handlers m → unloadModule handlers (done ++ m :: rest) m.m_sModName = done ++ m :: rest) := by
  rw [unloadModule, findModule_done hunique, Unloads]
  dsimp only
  rw [erase_done hunique]
  cases handlers m.m_sModName with
  | none => cases m.m_pDLL <;> simp
  | some bGone => cases bGone <;> simp

/-- a module that returns has its context back -/
theorem run_returned {e : EModRet} (he : f m.m_sModName = .returned e) :
    run c handlers f (todo + 1) done.length ⟨done ++ m :: rest, vis, b⟩ =
      if (f m.m_sModName).Stops then
        some ⟨done ++ m :: rest, vis ++ [m.m_sModName], b || (e = .HALT ∨ e = .HALTCORE)⟩
      else
        run c handlers f todo (done ++ [m]).length
          ⟨(done ++ [m]) ++ rest, vis ++ [m.m_sModName], b || (e = .HALT ∨ e = .HALTCORE)⟩ := by
  rw [run, getElem_done]
  dsimp only
  rw [he, leave_enter, set_done]
  cases e <;> simp [Outcome.Stops]

theorem run_other (he : f m.m_sModName = .otherException) :
    run c handlers f (todo + 1) done.length ⟨done ++ m :: rest, vis, b⟩ =
      run c handlers f todo (done ++ [m.enter c]).length ⟨(done ++ [m.enter c]) ++ rest, vis ++ [m.m_sModName], b⟩ := by
  rw [run, getElem_done]
  dsimp only
  rw [he, set_done]
  simp

/-- the next position is the same, whether the module is gone or not -/
theorem run_unload (he : f m.m_sModName = .unload) (hunique : ((done ++ m :: rest).map CModule.key).Nodup) :
    (Unloads handlers m → run c handlers f (todo + 1) done.length ⟨done ++ m :: rest, vis, b⟩ =
      run c handlers f todo (done.length + 1) ⟨done ++ rest, vis ++ [m.m_sModName], b⟩) ∧
    (¬ Unloads handlers m → run c handlers f (todo + 1) done.length ⟨done ++ m :: rest, vis, b⟩ =
      run c handlers f todo (done ++ [m.enter c]).length
        ⟨(done ++ [m.enter c]) ++ rest, vis ++ [m.m_sModName], b⟩) := by
  have hentered : ((done ++ m.enter c :: rest).map CModule.key).Nodup := by simpa using hunique
  obtain ⟨hgone, hstays⟩ := unloadModule_done handlers hentered
  rw [run, getElem_done]
  dsimp only
  rw [he, set_done]
  constructor
  · intro hun
    dsimp only
    have hmods : unloadModule handlers (done ++ m.enter c :: rest) m.m_sModName = done ++ rest := hgone hun
    rw [set_done, hmods]
  · intro hun
    dsimp only
    have hmods : unloadModule handlers (done ++ m.enter c :: rest) m.m_sModName =
      done ++ m.enter c :: rest := hstays hun
    rw [set_done, hmods, append_assoc, singleton_append, length_append, length_singleton]

/-! ## The call of the list -/

theorem meets_cons : Meets c handlers f (m :: rest) ↔
    Harmless c handlers f m rest ∧ (¬ (f m.m_sModName).Stops → Meets c handlers f rest) := by
  constructor
  · intro h
    refine ⟨h [] m rest rfl (by simp), fun hgo before m' after hsplit hbefore => ?_⟩
    exact h (m :: before) m' after (by rw [hsplit, cons_append]) (forall_mem_cons.2 ⟨hgo, hbefore⟩)
  · rintro ⟨hm, hrest⟩ before m' after hsplit hbefore
    cases before with
    | nil =>
      obtain ⟨rfl, rfl⟩ := List.cons.inj hsplit
      exact hm
    | cons m'' before =>
      obtain ⟨rfl, hafter⟩ := List.cons.inj hsplit
      obtain ⟨hgo, hbefore⟩ := forall_mem_cons.1 hbefore
      exact hrest hgo before m' after hafter hbefore

theorem names_nodup {mods : List CModule} (hunique : (mods.map CModule.key).Nodup) :
    (mods.map CModule.m_sModName).Nodup := by
  have hkeys : mods.map CModule.key = (mods.map CModule.m_sModName).map fun n => n.cStr.asLower := by simp [CModule.key]
  rw [hkeys] at hunique
  exact hunique.of_map

/-- what the call of the modules that are left ends with -/
structure Rest (f : CString → Outcome EModRet) (done rest : List CModule) (vis : List CString) (b : Bool)
    (r : Call) : Prop where
  visited : r.visited = vis ++ upToStop f (rest.map CModule.m_sModName)
  halt : r.bHaltCore = true ↔ b = true ∨ ∃ n ∈ upToStop f (rest.map CModule.m_sModName), (f n).Halts
  mods : ∃ kept, r.mods = done ++ kept ∧ kept ⊆ rest ∧ ∀ m ∈ rest, m ∈ kept ↔
    ¬ (m.m_sModName ∈ upToStop f (rest.map CModule.m_sModName) ∧ f m.m_sModName = .unload)

theorem Rest.cons {r : Call} {b' : Bool} (h : Rest f (done ++ [m]) rest (vis ++ [m.m_sModName]) b' r)
    (hunique : ((done ++ m :: rest).map CModule.key).Nodup) (hgo : ¬ (f m.m_sModName).Stops)
    (hstay : f m.m_sModName ≠ .unload) (hb : b' = true ↔ b = true ∨ (f m.m_sModName).Halts) :
    Rest f done (m :: rest) vis b r := by
  have hnames : m.m_sModName ∉ rest.map CModule.m_sModName := by
    have hnodup := (names_nodup hunique).sublist (List.Sublist.map _ (sublist_append_right done (m :: rest)))
    exact (nodup_cons.1 hnodup).1
  obtain ⟨kept, hmods, hsub, hkept⟩ := h.mods
  constructor
  · rw [h.visited, map_cons, upToStop, if_neg hgo]
    simp
  · rw [h.halt, hb, map_cons, upToStop, if_neg hgo, exists_mem_cons_iff, or_assoc]
  · refine ⟨m :: kept, by rw [hmods, append_assoc]; rfl, cons_subset_cons _ hsub, fun m' hm' => ?_⟩
    rw [map_cons, upToStop, if_neg hgo, mem_cons, mem_cons]
    rcases mem_cons.1 hm' with rfl | hm'
    · exact iff_of_true (.inl rfl) fun hboth => hstay hboth.2
    · have hne : m'.m_sModName ≠ m.m_sModName := fun heq => hnames (heq ▸ mem_map_of_mem hm')
      have hne' : m' ≠ m := fun heq => hne (by rw [heq])
      rw [or_iff_right hne', or_iff_right hne, hkept m' hm']

theorem Rest.stop {b' : Bool} (hstop : (f m.m_sModName).Stops) (hb : b' = true ↔ b = true ∨ (f m.m_sModName).Halts) :
    Rest f done (m :: rest) vis b ⟨done ++ m :: rest, vis ++ [m.m_sModName], b'⟩ := by
  have hstay : f m.m_sModName ≠ .unload := by
    rcases hstop with he | he <;> simp [he]
  constructor
  · rw [map_cons, upToStop, if_pos hstop]
  · simp [upToStop, hstop, hb]
  · refine ⟨m :: rest, rfl, List.Subset.refl _, fun m' hm' => iff_of_true hm' ?_⟩
    rintro ⟨hname, hunload⟩
    rw [map_cons, upToStop, if_pos hstop, mem_singleton] at hname
    rw [hname] at hunload
    exact hstay hunload

/-- **The modules that are left are called as they should be**, if each that is reached is harmless. -/
theorem run_good (hunique : ((done ++ rest).map CModule.key).Nodup) (hmeets : Meets c handlers f rest) :
    ∃ r, run c handlers f rest.length done.length ⟨done ++ rest, vis, b⟩ = some r ∧ Rest f done rest vis b r := by
  induction rest generalizing done vis b with
  | nil => exact ⟨_, rfl, by simp [upToStop], by simp [upToStop], [], rfl, List.Subset.refl _, by simp⟩
  | cons m rest ih =>
    obtain ⟨hm, hrest⟩ := meets_cons.1 hmeets
    have hnext : ((done ++ [m] ++ rest).map CModule.key).Nodup := by simpa using hunique
    rw [length_cons]
    cases he : f m.m_sModName with
    | returned e =>
      rw [run_returned he]
      by_cases hgo : (f m.m_sModName).Stops
      · rw [if_pos hgo]
        exact ⟨_, rfl, Rest.stop hgo (by simp [he, Outcome.Halts])⟩
      · obtain ⟨r, hrun, hr⟩ := ih hnext (hrest hgo)
        rw [if_neg hgo]
        exact ⟨r, hrun, hr.cons hunique hgo (by simp [he]) (by simp [he, Outcome.Halts])⟩
    | unload =>
      -- it is the last one: the loop is at the old end of the list
      obtain ⟨rfl, hun⟩ := hm.unload he
      have hgo : ¬ (f m.m_sModName).Stops := by simp [he, Outcome.Stops]
      rw [(run_unload he hunique).1 hun]
      refine ⟨_, rfl, ?_, ?_, [], rfl, nil_subset _, ?_⟩
      · simp [upToStop]
      · simp [upToStop, he, Outcome.Halts]
      · simp [upToStop, he]
    | otherException =>
      have hgo : ¬ (f m.m_sModName).Stops := by simp [he, Outcome.Stops]
      obtain ⟨r, hrun, hr⟩ := ih hnext (hrest hgo)
      rw [run_other he, hm.other he]
      exact ⟨r, hrun, hr.cons hunique hgo (by simp [he]) (by simp [he, Outcome.Halts])⟩

theorem run_visits_of {i : ℕ} {s r : Call}
    (hlater : ∀ i s, run c handlers f todo i s = some r → s.visited <+: r.visited)
    (hget : s.mods[i]? = some m) (hrun : run c handlers f (todo + 1) i s = some r) : s.visited ++
      [m.m_sModName] <+: r.visited := by
  rw [run, hget] at hrun
  dsimp only at hrun
  cases he : f m.m_sModName with
  | returned e =>
    rw [he] at hrun
    cases e with
    | CONTINUE => exact hlater _ _ hrun
    | HALTCORE => exact hlater _ _ hrun
    | HALT =>
      obtain rfl := Option.some.inj hrun
      exact prefix_refl _
    | HALTMODS =>
      obtain rfl := Option.some.inj hrun
      exact prefix_refl _
  | unload =>
    rw [he] at hrun
    exact hlater _ _ hrun
  | otherException =>
    rw [he] at hrun
    exact hlater _ _ hrun

theorem run_visited {i : ℕ} {s r : Call} (hrun : run c handlers f todo i s = some r) : s.visited <+: r.visited := by
  induction todo generalizing i s with
  | zero =>
    obtain rfl := Option.some.inj hrun
    exact prefix_refl _
  | succ todo ih =>
    cases hget : s.mods[i]? with
    | none =>
      rw [run, hget] at hrun
      cases hrun
    | some m => exact (prefix_append _ _).trans (run_visits_of (fun _ _ => ih) hget hrun)

theorem run_visits {i : ℕ} {s r : Call} (hget : s.mods[i]? = some m) (hrun : run c handlers f (todo + 1) i s = some r) :
    s.visited ++ [m.m_sModName] <+: r.visited :=
  run_visits_of (fun _ _ => run_visited) hget hrun

theorem run_frame {i : ℕ} {s r : Call} (hunique : (s.mods.map CModule.key).Nodup)
    (hrun : run c handlers f todo i s = some r) : ∀ m ∈ s.mods.take i, m ∈ r.mods := by
  induction todo generalizing i s with
  | zero =>
    obtain rfl := Option.some.inj hrun
    exact fun m hm => mem_of_mem_take hm
  | succ todo ih =>
    obtain ⟨mods, vis, b⟩ := s
    cases hget : mods[i]? with
    | none =>
      rw [run, hget] at hrun
      cases hrun
    | some m =>
      obtain ⟨hlt, hm⟩ := List.getElem?_eq_some_iff.1 hget
      have hsplit : mods = mods.take i ++ m :: mods.drop (i + 1) := by
        rw [← hm, cons_getElem_drop_succ, take_append_drop]
      have hlen : (mods.take i).length = i := by simp [hlt.le]
      generalize mods.take i = done at hsplit hlen
      generalize mods.drop (i + 1) = rest at hsplit
      subst hsplit hlen
      have hon : ∀ x b', x.key = m.key →
          run c handlers f todo (done ++ [x]).length ⟨done ++ [x] ++ rest, vis ++ [m.m_sModName], b'⟩ = some r →
            ∀ m ∈ done, m ∈ r.mods := by
        intro x b' hkey hrun m' hm'
        refine ih (by simpa [hkey] using hunique) hrun m' ?_
        rw [take_left]
        exact mem_append_left _ hm'
      cases he : f m.m_sModName with
      | returned e =>
        rw [run_returned he] at hrun
        split_ifs at hrun
        · obtain rfl := Option.some.inj hrun
          exact fun m' hm' => mem_append_left _ hm'
        · exact hon m _ rfl hrun
      | unload =>
        by_cases hun : Unloads handlers m
        · rw [(run_unload he hunique).1 hun] at hrun
          have hless : ((done ++ rest).map CModule.key).Nodup :=
            hunique.sublist (List.Sublist.map _ (List.Sublist.append_left (sublist_cons_self m rest) done))
          refine fun m' hm' => ih hless hrun m' ?_
          dsimp only
          rw [take_length_add_append]
          exact mem_append_left _ hm'
        · exact hon (m.enter c) b rfl ((run_unload he hunique).2 hun ▸ hrun)
      | otherException => exact hon (m.enter c) b rfl (run_other he ▸ hrun)

theorem run_exact {r : Call} (hunique : ((done ++ rest).map CModule.key).Nodup)
    (hrun : run c handlers f rest.length done.length ⟨done ++ rest, vis, b⟩ = some r)
    (hvis : r.visited = vis ++ upToStop f (rest.map CModule.m_sModName))
    (hremoved : ∀ m ∈ rest, f m.m_sModName = .unload → m.m_sModName ∈ r.visited →
      ∀ m' ∈ r.mods, m'.m_sModName ≠ m.m_sModName)
    (hcontext : ∀ m ∈ rest, ∀ m' ∈ r.mods, m'.m_sModName = m.m_sModName → m' = m) : Meets c handlers f rest := by
  induction rest generalizing done vis b with
  | nil =>
    intro before m after hsplit
    simp at hsplit
  | cons m rest ih =>
    rw [length_cons] at hrun
    -- a module that stays as it is, and the ones behind it
    have hon : ∀ b', ¬ (f m.m_sModName).Stops →
        run c handlers f rest.length (done ++ [m]).length ⟨done ++ [m] ++ rest, vis ++ [m.m_sModName], b'⟩ = some r →
          Meets c handlers f rest := by
      intro b' hgo hrun
      rw [map_cons, upToStop, if_neg hgo] at hvis
      refine ih (by simpa using hunique) hrun (by rw [hvis]; simp)
        (fun m' hm' => hremoved m' (mem_cons_of_mem m hm')) ?_
      exact fun m' hm' => hcontext m' (mem_cons_of_mem m hm')
    rw [meets_cons]
    cases he : f m.m_sModName with
    | returned e =>
      refine ⟨⟨by simp [he], by simp [he]⟩, fun hgo => ?_⟩
      rw [← he] at hgo
      rw [run_returned he, if_neg hgo] at hrun
      exact hon _ hgo hrun
    | unload =>
      have hgo : ¬ (f m.m_sModName).Stops := by simp [he, Outcome.Stops]
      rw [map_cons, upToStop, if_neg hgo] at hvis
      by_cases hun : Unloads handlers m
      · cases rest with
        | nil =>
          refine ⟨⟨fun _ => ⟨rfl, hun⟩, by simp [he]⟩, fun _ before m' after hsplit => ?_⟩
          simp at hsplit
        | cons a rest =>
          -- the module behind it is in its place, and passed over
          exfalso
          rw [(run_unload he hunique).1 hun, length_cons] at hrun
          cases rest with
          | nil =>
            rw [run, getElem?_eq_none (by simp)] at hrun
            cases hrun
          | cons a' rest =>
            have hget : (done ++ a :: a' :: rest)[done.length + 1]? = some a' := by simp
            have hnext := run_visits hget hrun
            rw [hvis, map_cons, upToStop, append_assoc, prefix_append_right_inj] at hnext
            have hname : a'.m_sModName = a.m_sModName := by simpa using hnext
            have hnodup := (names_nodup hunique).sublist
              (List.Sublist.map _ (sublist_append_right done (m :: a :: a' :: rest)))
            simp [hname] at hnodup
      · -- it stays
        exfalso
        rw [(run_unload he hunique).2 hun] at hrun
        have hentered : ((done ++ [m.enter c] ++ rest).map CModule.key).Nodup := by simpa using hunique
        have hstays := run_frame hentered hrun (m.enter c) (by rw [take_left]; simp)
        exact hremoved m mem_cons_self he (by rw [hvis]; simp) _ hstays rfl
    | otherException =>
      have hgo : ¬ (f m.m_sModName).Stops := by simp [he, Outcome.Stops]
      rw [run_other he] at hrun
      have hentered : ((done ++ [m.enter c] ++ rest).map CModule.key).Nodup := by simpa using hunique
      have hsame : m.enter c = m := by
        have hstays := run_frame hentered hrun (m.enter c) (by rw [take_left]; simp)
        exact hcontext m mem_cons_self _ hstays rfl
      rw [hsame] at hrun
      exact ⟨⟨by simp [he], fun _ => hsame⟩, fun _ => hon b hgo hrun⟩

/-! ## A hook of the list -/

theorem modHaltChk_iff (handlers : CString → Option Bool) (f : CString → Outcome EModRet) (ms : CModules) :
    (∃ r, modHaltChk handlers f ms = some r ∧ Good f ms.mods r) ↔ Meets ms.toContext handlers f ms.mods := by
  have hinj : ∀ m ∈ ms.mods, ∀ m' ∈ ms.mods, m'.m_sModName = m.m_sModName → m' = m := fun m hm m' hm' hname =>
    inj_on_of_nodup_map (names_nodup ms.unique) hm' hm hname
  constructor
  · rintro ⟨r, hrun, hgood⟩
    have hall : (([] ++ ms.mods).map CModule.key).Nodup := ms.unique
    refine run_exact hall hrun hgood.visited ?_ fun m hm m' hm' => hinj m hm m' (hgood.context m' hm')
    intro m hm hunload hvis m' hm' hname
    exact (hgood.removed m hm).1 ⟨m', hm', hname⟩ ⟨hvis, hunload⟩
  · intro hmeets
    have hall : (([] ++ ms.mods).map CModule.key).Nodup := ms.unique
    obtain ⟨r, hrun, hr⟩ : ∃ r, modHaltChk handlers f ms = some r ∧ Rest f [] ms.mods [] false r := run_good hall hmeets
    obtain ⟨kept, hmods, hsub, hkept⟩ := hr.mods
    rw [nil_append] at hmods
    have hvis : r.visited = upToStop f (ms.mods.map CModule.m_sModName) := hr.visited
    refine ⟨r, hrun, hvis, ?_, fun m hm => ?_, fun m hm => hsub (hmods ▸ hm)⟩
    · rw [hr.halt, hvis]
      simp
    · rw [hvis, ← hkept m hm, hmods]
      constructor
      · rintro ⟨m', hm', hname⟩
        exact hinj m hm m' (hsub hm') hname ▸ hm'
      · exact fun hm' => ⟨m, hm', rfl⟩

/-- **A hook is dispatched as it should be** exactly if every module that is reached is harmless, with or without a value. -/
theorem dispatch_iff (handlers : CString → Option Bool) (ms : CModules) :
    (∀ f, (∃ r, modHaltChk handlers f ms = some r ∧ Good f ms.mods r) ↔ Meets ms.toContext handlers f ms.mods) ∧
      ∀ f, (∃ r, modUnloadChk handlers f ms = some r ∧ Good (voidHook f) ms.mods r) ↔
        Meets ms.toContext handlers (voidHook f) ms.mods :=
  ⟨fun f => modHaltChk_iff handlers f ms, fun f => modHaltChk_iff handlers (voidHook f) ms⟩

/-- **A module is passed over**: perform unloads itself, and log is not called. If nobody stops, the end of the list is read over. -/
theorem unload_skips :
    let c : Context := ⟨none, none, none⟩
    let ms : CModules := ⟨c, [⟨c, lit "perform", true⟩, ⟨c, lit "log", true⟩, ⟨c, lit "savebuff", true⟩], by decide⟩
    let f (n : CString) : Outcome EModRet := if n = lit "perform" then .unload else .returned .HALT
    let g (n : CString) : Outcome EModRet := if n = lit "perform" then .unload else .returned .CONTINUE
    (modHaltChk (fun _ => none) f ms).map Call.visited = some [lit "perform", lit "savebuff"] ∧
      (¬ ∃ r, modHaltChk (fun _ => none) f ms = some r ∧ Good f ms.mods r) ∧
        modHaltChk (fun _ => none) g ms = none := by
  intro c ms f g
  have hvisited : (modHaltChk (fun _ => none) f ms).map Call.visited = some [lit "perform", lit "savebuff"] := by decide
  refine ⟨hvisited, ?_, by decide⟩
  rintro ⟨r, hrun, hgood⟩
  rw [hrun, Option.map_some, hgood.visited] at hvisited
  have hskipped : upToStop f (ms.mods.map CModule.m_sModName) ≠ [lit "perform", lit "savebuff"] := by decide
  exact hskipped (Option.some.inj hvisited)

end ZNC.HookDispatch
