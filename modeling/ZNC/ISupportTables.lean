/-
The tables of `ISupport.lean` against what the server advertises.

CHANMODES=A,B,C,D gives the types of the channel modes by group, PREFIX=(modes)characters the permissions. The groups are
cut out with `Token`, which passes over empty ones: the group behind an empty one is taken for it.

Results:
- `chanModes_groups_iff`: the table of channel modes is the groups', exactly if no empty one stands before one that is not;
- `isupport_tables_iff`: both for every run of 005 lines;
- `chanmodes_shift`: a server without list modes gets its key mode taken for one.
-/
import ZNC.ISupport

namespace ZNC.ServerTables

open CString Words List

/-! ## CHANMODES -/

theorem find_foldl_insert {V : Type} (v : V) (l : CString) (m : OrdMap UInt8 V) (c : UInt8) :
    (l.foldl (fun m c => m.insert c v) m).find c = if c ∈ l then some v else m.find c := by
  induction l generalizing m with
  | nil => rfl
  | cons a l ih =>
    rw [foldl_cons, ih, OrdMap.find_insert]
    by_cases h : c ∈ l
    · rw [if_pos h, if_pos (mem_cons_of_mem _ h)]
    · by_cases hca : c = a
      · rw [if_neg h, if_pos hca, if_pos (mem_cons.2 (.inl hca))]
      · rw [if_neg h, if_neg hca, if_neg (fun hm => (mem_cons.1 hm).elim hca h)]

theorem chanModes_type (sValue : CString) (c : UInt8) :
    ((chanModes sValue).find c).getD .NoArg =
      if c ∈ sValue.token 3 false (ch ',') false then .NoArg
      else if c ∈ sValue.token 2 false (ch ',') false then .ArgWhenSet
      else if c ∈ sValue.token 1 false (ch ',') false then .HasArg
      else if c ∈ sValue.token 0 false (ch ',') false then .ListArg
      else .NoArg := by
  have hrange : List.range 4 = [0, 1, 2, 3] := rfl
  unfold chanModes
  rw [hrange]
  simp only [foldl_cons, foldl_nil, find_foldl_insert, OrdMap.find_empty]
  split_ifs <;> rfl

/-- the value of CHANMODES for four groups -/
def chanModesValue (A B C D : CString) : CString := A ++ ch ',' :: (B ++ ch ',' :: (C ++ ch ',' :: D))

/-- the type that the groups give a mode -/
def groupType (A B C D : CString) (c : UInt8) : EChanModeArgs :=
  if c ∈ A then .ListArg
  else if c ∈ B then .HasArg
  else if c ∈ C then .ArgWhenSet
  else if c ∈ D then .NoArg
  -- in no group: what the code takes for unknown modes
  else .NoArg

/-- no empty group stands before one that is not empty -/
def NoGap (A B C D : CString) : Prop := (A = [] → B = []) ∧ (B = [] → C = []) ∧ (C = [] → D = [])

instance (A B C D : CString) : Decidable (NoGap A B C D) := by unfold NoGap; infer_instance

/-- the groups are distinct letters -/
structure Letters (A B C D : CString) : Prop where
  letter : ∀ c ∈ A ++ (B ++ (C ++ D)), isalpha c = true
  nodup : (A ++ (B ++ (C ++ D))).Nodup

variable {A w B v C D : CString}

theorem token_chanModesValue (h : Letters A B C D) (a : ℕ) :
    (chanModesValue A B C D).token a false (ch ',') false = ([A, B, C, D].filter (· ≠ [])).getD a [] := by
  have hcomma : ∀ c ∈ A ++ (B ++ (C ++ D)), c ≠ ch ',' := by
    intro c hc h0
    have := h.letter c hc
    rw [h0] at this
    exact absurd this (by decide)
  have hA : ch ',' ∉ A := fun hm => hcomma _ (mem_append_left _ hm) rfl
  have hB : ch ',' ∉ B := fun hm => hcomma _ (mem_append_right _ (mem_append_left _ hm)) rfl
  have hC : ch ',' ∉ C := fun hm =>
    hcomma _ (mem_append_right _ (mem_append_right _ (mem_append_left _ hm))) rfl
  have hD : ch ',' ∉ D := fun hm =>
    hcomma _ (mem_append_right _ (mem_append_right _ (mem_append_right _ hm))) rfl
  have hfields : fields (ch ',') (chanModesValue A B C D) = [A, B, C, D].filter (· ≠ []) := by
    rw [chanModesValue, fields_append hA, fields_append hB, fields_append hC, fields_of_not_mem hD]
    by_cases h1 : A = [] <;> by_cases h2 : B = [] <;> by_cases h3 : C = [] <;> by_cases h4 : D = [] <;>
      simp [h1, h2, h3, h4]
  rw [token_eq_fields, hfields]

theorem token_eq_group (h : Letters A B C D) (hgap : NoGap A B C D) (a : ℕ) :
    (chanModesValue A B C D).token a false (ch ',') false = [A, B, C, D].getD a [] := by
  obtain ⟨hAB, hBC, hCD⟩ := hgap
  rw [token_chanModesValue h]
  by_cases hA : A = []
  · have hB := hAB hA
    have hC := hBC hB
    have hD := hCD hC
    rw [hA, hB, hC, hD]
    rcases a with _ | _ | _ | _ | a <;> rfl
  by_cases hB : B = []
  · have hC := hBC hB
    have hD := hCD hC
    rw [hB, hC, hD]
    rcases a with _ | _ | _ | _ | a <;> simp [hA]
  by_cases hC : C = []
  · have hD := hCD hC
    rw [hC, hD]
    rcases a with _ | _ | _ | _ | a <;> simp [hA, hB]
  by_cases hD : D = []
  · rw [hD]
    rcases a with _ | _ | _ | _ | a <;> simp [hA, hB, hC]
  · simp [hA, hB, hC, hD]

theorem chanModes_groups_iff (h : Letters A B C D) :
    (∀ c, ((chanModes (chanModesValue A B C D)).find c).getD .NoArg = groupType A B C D c) ↔ NoGap A B C D := by
  obtain ⟨-, hrest, hAd⟩ := nodup_append.1 h.nodup
  obtain ⟨-, hrest, hBd⟩ := nodup_append.1 hrest
  obtain ⟨-, -, hCd⟩ := nodup_append.1 hrest
  constructor
  · intro htype
    have htok : ∀ c, (if c ∈ ([A, B, C, D].filter (· ≠ [])).getD 3 [] then EChanModeArgs.NoArg
        else if c ∈ ([A, B, C, D].filter (· ≠ [])).getD 2 [] then .ArgWhenSet
        else if c ∈ ([A, B, C, D].filter (· ≠ [])).getD 1 [] then .HasArg
        else if c ∈ ([A, B, C, D].filter (· ≠ [])).getD 0 [] then .ListArg
        else .NoArg) = groupType A B C D c := by
      intro c
      rw [← htype, chanModes_type]
      simp only [token_chanModesValue h]
    refine ⟨fun hA0 => ?_, fun hB0 => ?_, fun hC0 => ?_⟩
    · -- the second group would be taken for the first
      by_contra hne
      obtain ⟨c, hc⟩ := exists_mem_of_ne_nil B hne
      have h2 : c ∉ C := fun hm => hBd c hc c (mem_append_left _ hm) rfl
      have h3 : c ∉ D := fun hm => hBd c hc c (mem_append_right _ hm) rfl
      have hbad := htok c
      by_cases hC0 : C = [] <;> by_cases hD0 : D = [] <;> simp [groupType, hA0, hne, hC0, hD0, hc, h2, h3] at hbad
    · -- the third group would be taken for the first or the second
      by_contra hne
      obtain ⟨c, hc⟩ := exists_mem_of_ne_nil C hne
      have h0 : c ∉ A := fun hm => hAd c hm c (mem_append_right _ (mem_append_left _ hc)) rfl
      have h3 : c ∉ D := fun hm => hCd c hc c hm rfl
      have hbad := htok c
      by_cases hA0 : A = [] <;> by_cases hD0 : D = [] <;> simp [groupType, hA0, hB0, hne, hD0, hc, h0, h3] at hbad
    · -- the fourth group would be taken for one of the first three
      by_contra hne
      obtain ⟨c, hc⟩ := exists_mem_of_ne_nil D hne
      have h0 : c ∉ A := fun hm => hAd c hm c (mem_append_right _ (mem_append_right _ hc)) rfl
      have h1 : c ∉ B := fun hm => hBd c hm c (mem_append_right _ hc) rfl
      have hbad := htok c
      by_cases hA0 : A = [] <;> by_cases hB0 : B = [] <;> simp [groupType, hA0, hB0, hC0, hne, hc, h0, h1] at hbad
  · intro hgap c
    rw [chanModes_type]
    simp only [token_eq_group h hgap, groupType]
    change (if c ∈ D then EChanModeArgs.NoArg else if c ∈ C then .ArgWhenSet else if c ∈ B then .HasArg
      else if c ∈ A then .ListArg else .NoArg) = _
    by_cases hcA : c ∈ A
    · have h1 : c ∉ B := fun hm => hAd c hcA c (mem_append_left _ hm) rfl
      have h2 : c ∉ C := fun hm => hAd c hcA c (mem_append_right _ (mem_append_left _ hm)) rfl
      have h3 : c ∉ D := fun hm => hAd c hcA c (mem_append_right _ (mem_append_right _ hm)) rfl
      rw [if_neg h3, if_neg h2, if_neg h1, if_pos hcA, if_pos hcA]
    · by_cases hcB : c ∈ B
      · have h2 : c ∉ C := fun hm => hBd c hcB c (mem_append_left _ hm) rfl
        have h3 : c ∉ D := fun hm => hBd c hcB c (mem_append_right _ hm) rfl
        rw [if_neg h3, if_neg h2, if_pos hcB, if_neg hcA, if_pos hcB]
      · by_cases hcC : c ∈ C
        · have h3 : c ∉ D := fun hm => hCd c hcC c hm rfl
          rw [if_neg h3, if_pos hcC, if_neg hcA, if_neg hcB, if_pos hcC]
        · rw [if_neg hcC, if_neg hcB, if_neg hcA, if_neg hcA, if_neg hcB, if_neg hcC]

/-! ## PREFIX -/

def prefixValue (M P : CString) : CString := ch '(' :: (M ++ ch ')' :: P)

theorem token_prefixValue {M P : CString} (hM : ∀ m ∈ M, isalpha m = true) :
    ((prefixValue M P).token 0 false (ch ')') false).trimLeft (lit "(") = M ∧
      (prefixValue M P).token 1 false (ch ')') false = P.token 0 false (ch ')') false := by
  have hparen : ∀ c : UInt8, isalpha c = false → c ∉ M := by
    intro c hc hm
    have := hM c hm
    rw [hc] at this
    exact absurd this Bool.false_ne_true
  have hclose : ch ')' ∉ ch '(' :: M := by
    intro hm
    rcases mem_cons.1 hm with h | h
    · exact absurd h (by decide)
    · exact hparen _ (by decide) h
  have hfields : fields (ch ')') (prefixValue M P) = (ch '(' :: M) :: fields (ch ')') P := by
    have hvalue : prefixValue M P = (ch '(' :: M) ++ ch ')' :: P := rfl
    rw [hvalue, fields_append hclose, if_neg (cons_ne_nil _ _)]
    rfl
  rw [token_eq_fields, token_eq_fields, token_eq_fields, hfields]
  refine ⟨?_, rfl⟩
  have hopen : ∀ c, c ∈ lit "(" ↔ c = ch '(' := fun c => mem_singleton
  rw [getD_cons_zero, trimLeft, dropWhile_cons_of_pos (by decide)]
  cases M with
  | nil => rfl
  | cons m M =>
    have hm : m ≠ ch '(' := fun h => hparen (ch '(') (by decide) (h ▸ mem_cons_self)
    rw [dropWhile_cons_of_neg (by simpa [hopen] using hm)]

theorem setToken_permTables {M P : CString} (hM : ∀ m ∈ M, isalpha m = true) (hlen : M.length = P.length) (hne : P ≠ [])
    (t : ServerTables) :
    (ch ')' ∉ P → (t.setToken (lit "PREFIX") (prefixValue M P)).sPerms = P ∧
      (t.setToken (lit "PREFIX") (prefixValue M P)).sPermModes = M) ∧
    (ch ')' ∈ P → (t.setToken (lit "PREFIX") (prefixValue M P)).sPerms = t.sPerms ∧
      (t.setToken (lit "PREFIX") (prefixValue M P)).sPermModes = t.sPermModes) := by
  have hname : (lit "PREFIX").equals (lit "PREFIX") = true := rfl
  obtain ⟨hmodes, hperms⟩ := token_prefixValue (P := P) hM
  unfold setToken
  simp only [hname, if_true, hmodes, hperms]
  constructor
  · intro hP
    have hall := token_zero_of_not_mem hP
    rw [if_pos ⟨by rw [hall]; exact hne, by rw [hall, hlen]⟩]
    exact ⟨hall, rfl⟩
  · intro hP
    have hshort : ¬ M.length = (P.token 0 false (ch ')') false).length := fun h =>
      (token_zero_length P (ch ')')).2 (h.symm.trans hlen) hP
    rw [if_neg fun h => hshort h.2]
    exact ⟨rfl, rfl⟩

/-! ## What is advertised -/

/-- the token of 005 for four groups of modes -/
def chanModesToken (A B C D : CString) : CString := lit "CHANMODES" ++ ch '=' :: chanModesValue A B C D

/-- the token of 005 for permission modes and characters -/
def prefixToken (M P : CString) : CString := lit "PREFIX" ++ ch '=' :: prefixValue M P

theorem nameOf_append (hne : w ≠ []) (hw : ch '=' ∉ w) : nameOf (w ++ ch '=' :: v) = w := by
  rw [nameOf, token_eq_fields, fields_append hw, if_neg hne]
  rfl

theorem readToken_append (hne : w ≠ []) (hw : ch '=' ∉ w) (hv : v.head? ≠ some (ch '=')) (t : ServerTables) :
    t.readToken (w ++ ch '=' :: v) = t.setToken w v := by
  have hvalue : (w ++ ch '=' :: v).token 1 true (ch '=') false = v := by
    rw [token_rest hne hw]
    cases v with
    | nil => rfl
    | cons c v =>
      have hc : c ≠ ch '=' := fun h => hv (by rw [h]; rfl)
      rw [dropWhile_cons_of_neg (by simpa using hc)]
  rw [readToken, nameOf_append hne hw, hvalue]

theorem readToken_chanModes (h : Letters A B C D) (t : ServerTables) :
    (t.readToken (chanModesToken A B C D)).mceChanModes = chanModes (chanModesValue A B C D) := by
  have hhead : (chanModesValue A B C D).head? ≠ some (ch '=') := by
    intro h0
    rw [chanModesValue] at h0
    cases A with
    | nil => exact absurd (Option.some_inj.1 h0) (by decide)
    | cons a A =>
      have ha := h.letter a (mem_append_left _ mem_cons_self)
      obtain rfl : a = ch '=' := Option.some_inj.1 h0
      exact absurd ha (by decide)
  have hvalue : chanModesValue A B C D ≠ [] := by
    intro h0
    exact absurd (append_eq_nil_iff.1 h0).2 (cons_ne_nil _ _)
  have hnames : (lit "CHANMODES").equals (lit "PREFIX") = false ∧ (lit "CHANMODES").equals (lit "CHANTYPES") = false ∧
      (lit "CHANMODES").equals (lit "NICKLEN") = false ∧ (lit "CHANMODES").equals (lit "CHANMODES") = true :=
    ⟨by decide, by decide, by decide, by decide⟩
  rw [chanModesToken, readToken_append (by decide) (by decide) hhead, setToken]
  simp only [hnames, Bool.false_eq_true, if_false, if_true]
  rw [if_pos hvalue]

theorem readToken_permTables (M P : CString) (t : ServerTables) :
    t.readToken (prefixToken M P) = t.setToken (lit "PREFIX") (prefixValue M P) := by
  have hhead : (prefixValue M P).head? = some (ch '(') := rfl
  exact readToken_append (by decide) (by decide) (by rw [hhead]; decide) t

/-- a 005 line with one token -/
def line005 (sToken : CString) : CMessage :=
  { CMessage.blank CMessage.stoppedClock with
    sCommand := lit "005", vsParams := [lit "nick", sToken, lit "are supported by this server"], eType := .Numeric }

theorem readTokens_line005 (hne : w ≠ []) (hw : ch '=' ∉ w) (hcolon : w.head? ≠ some (ch ':')) :
    readTokens (line005 (w ++ ch '=' :: v)) = [w ++ ch '=' :: v] := by
  have hparams : (line005 (w ++ ch '=' :: v)).vsParams.dropLast.drop 1 = [w ++ ch '=' :: v] := rfl
  rw [readTokens, hparams, takeWhile_cons_of_pos (by rw [nameOf_append hne hw]; simpa using hcolon), takeWhile_nil]

theorem advertised_line005 (hne : w ≠ []) (hw : ch '=' ∉ w) (hcolon : w.head? ≠ some (ch ':')) :
    Advertised [line005 (w ++ ch '=' :: v)] w (w ++ ch '=' :: v) := by
  refine ⟨[], [], ?_, fun p hp => nomatch hp⟩
  rw [flatMap_singleton, readTokens_line005 hne hw hcolon]
  rfl

/-- the tables say what CHANMODES with these groups and PREFIX with these modes and characters advertise -/
structure TablesRight (A B C D M P : CString) : Prop where
  chanModes : ∀ sChanPrefixes lines, Advertised lines (lit "CHANMODES") (chanModesToken A B C D) →
    ∀ c, (tables sChanPrefixes lines).getModeType c = groupType A B C D c
  lengths : ∀ sChanPrefixes lines,
    (tables sChanPrefixes lines).sPermModes.length = (tables sChanPrefixes lines).sPerms.length
  inverse : ∀ sChanPrefixes lines, Advertised lines (lit "PREFIX") (prefixToken M P) → ∀ m p, (m, p) ∈ M.zip P →
    (tables sChanPrefixes lines).getPermFromMode m = p ∧ (tables sChanPrefixes lines).getModeFromPerm p = m

theorem chanModes_right_iff (h : Letters A B C D) :
    (∀ sChanPrefixes lines, Advertised lines (lit "CHANMODES") (chanModesToken A B C D) →
      ∀ c, (tables sChanPrefixes lines).getModeType c = groupType A B C D c) ↔ NoGap A B C D := by
  have hfield : ∀ sChanPrefixes lines, Advertised lines (lit "CHANMODES") (chanModesToken A B C D) →
      (tables sChanPrefixes lines).mceChanModes = chanModes (chanModesValue A B C D) := by
    intro sChanPrefixes lines hadv
    obtain ⟨t, ht⟩ := advertised_field (·.mceChanModes) setToken_chanModes hadv sChanPrefixes
    rw [ht, readToken_chanModes h]
  rw [← chanModes_groups_iff h]
  constructor
  · intro hright c
    have hadv : Advertised [line005 (chanModesToken A B C D)] (lit "CHANMODES") (chanModesToken A B C D) :=
      advertised_line005 (by decide) (by decide) (by decide)
    rw [← hright [] _ hadv, getModeType, hfield [] _ hadv]
  · intro hright sChanPrefixes lines hadv c
    rw [getModeType, hfield _ _ hadv, hright]

theorem inverse_right_iff {M P : CString} (hM : ∀ m ∈ M, isalpha m = true) (hMnodup : M.Nodup) (hPnodup : P.Nodup)
    (hlen : M.length = P.length) :
    (∀ sChanPrefixes lines, Advertised lines (lit "PREFIX") (prefixToken M P) → ∀ m p, (m, p) ∈ M.zip P →
      (tables sChanPrefixes lines).getPermFromMode m = p ∧ (tables sChanPrefixes lines).getModeFromPerm p = m) ↔
      ch ')' ∉ P := by
  constructor
  · intro hright hclose
    have hne : P ≠ [] := ne_nil_of_mem hclose
    have hadv : Advertised [line005 (prefixToken M P)] (lit "PREFIX") (prefixToken M P) :=
      advertised_line005 (by decide) (by decide) (by decide)
    -- the tables stay those of the constructor, which do not know ')'
    have htables : (tables [] [line005 (prefixToken M P)]).sPerms = lit "*!@%+" ∧
        (tables [] [line005 (prefixToken M P)]).sPermModes = lit "qaohv" := by
      have htok : readTokens (line005 (prefixToken M P)) = [prefixToken M P] :=
        readTokens_line005 (by decide) (by decide) (by decide)
      rw [tables_eq, flatMap_singleton, htok, foldl_cons, foldl_nil, readToken_permTables]
      exact (setToken_permTables hM hlen hne (initial [])).2 hclose
    obtain ⟨i, hi, hP⟩ := getElem_of_mem hclose
    have hiM : i < M.length := by omega
    have hzip : (M[i], ch ')') ∈ M.zip P := by
      rw [← hP, ← getElem_zip (h := by simpa using ⟨hiM, hi⟩)]
      exact getElem_mem _
    have hback := (hright [] _ hadv _ _ hzip).2
    rw [getModeFromPerm, htables.1, htables.2] at hback
    have hletter := hM _ (getElem_mem hiM)
    rw [← hback] at hletter
    exact absurd hletter (by decide)
  · intro hclose sChanPrefixes lines hadv m p hmp
    have hne : P ≠ [] := ne_nil_of_mem (of_mem_zip hmp).2
    have hfield : ∀ (t : ServerTables) (sName sValue : CString), sName.equals (lit "PREFIX") = false →
        ((t.setToken sName sValue).sPerms, (t.setToken sName sValue).sPermModes) = (t.sPerms, t.sPermModes) := by
      intro t sName sValue hname
      obtain ⟨h1, h2⟩ := setToken_perms t sName sValue hname
      rw [h1, h2]
    obtain ⟨t, ht⟩ := advertised_field (fun t => (t.sPerms, t.sPermModes)) hfield hadv sChanPrefixes
    obtain ⟨hperms, hmodes⟩ := (setToken_permTables hM hlen hne t).1 hclose
    rw [readToken_permTables, hperms, hmodes] at ht
    obtain ⟨hperms, hmodes⟩ := Prod.mk.inj ht
    apply perm_inverse (permTables_length sChanPrefixes lines)
    · rw [hmodes]
      exact hMnodup
    · rw [hperms]
      exact hPnodup
    · rw [hmodes, hperms]
      exact hmp

/-- **The tables are what 005 advertises**, exactly if no empty group of CHANMODES stands before one that is not empty, and
')' is no permission character. -/
theorem isupport_tables_iff (A B C D M P : CString) (h : Letters A B C D) (hM : ∀ m ∈ M, isalpha m = true)
    (hMnodup : M.Nodup) (hPnodup : P.Nodup) (hlen : M.length = P.length) :
    TablesRight A B C D M P ↔ NoGap A B C D ∧ ch ')' ∉ P := by
  constructor
  · intro hright
    exact ⟨(chanModes_right_iff h).1 hright.chanModes, (inverse_right_iff hM hMnodup hPnodup hlen).1 hright.inverse⟩
  · intro hcond
    exact ⟨(chanModes_right_iff h).2 hcond.1, permTables_length,
      (inverse_right_iff hM hMnodup hPnodup hlen).2 hcond.2⟩

/-- the groups and permissions that a usual server advertises -/
theorem isupport_tables_usual :
    TablesRight (lit "beI") (lit "k") (lit "l") (lit "imnpst") (lit "ov") (lit "@+") := by
  have hgroups : (lit "beI" ++ (lit "k" ++ (lit "l" ++ lit "imnpst"))).all isalpha = true := by decide
  have hmodes : (lit "ov").all isalpha = true := by decide
  have hletters : Letters (lit "beI") (lit "k") (lit "l") (lit "imnpst") := ⟨all_eq_true.1 hgroups, by decide⟩
  exact (isupport_tables_iff (lit "beI") (lit "k") (lit "l") (lit "imnpst") (lit "ov") (lit "@+") hletters
    (all_eq_true.1 hmodes) (by decide) (by decide) rfl).2 ⟨by decide, by decide⟩

/-- without list modes the key mode is taken for one -/
theorem chanmodes_shift :
    ¬ TablesRight [] (lit "k") (lit "l") (lit "imnpst") (lit "ov") (lit "@+") := by
  intro h
  have hadv : Advertised [line005 (chanModesToken [] (lit "k") (lit "l") (lit "imnpst"))] (lit "CHANMODES")
      (chanModesToken [] (lit "k") (lit "l") (lit "imnpst")) :=
    advertised_line005 (by decide) (by decide) (by decide)
  have htype := h.chanModes [] _ hadv (ch 'k')
  have hlist : (tables [] [line005 (chanModesToken [] (lit "k") (lit "l") (lit "imnpst"))]).getModeType (ch 'k') =
      .ListArg := by decide
  rw [hlist] at htype
  exact absurd htype (by decide)

end ZNC.ServerTables
