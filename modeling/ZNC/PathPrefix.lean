/-
Files in a directory: `CDir::ChangeDir` and `CheckPathPrefix` of `src/FileUtils.cpp`, with the file of `CHTTPSock::PrintFile`.

`ChangeDir` walks from a directory along the pieces of a path, and `CheckPathPrefix` refuses where it arrives unless the text
starts with that of the directory. The comparison is `StartsWith`, which ignores letter case.

Results:
- `startsWith_dir_iff`: the comparison, as one of pieces;
- `checkPathPrefix_iff`: when what is returned is a path in the directory;
- `checkPathPrefix_normal`: it always is, if letter case does not count and the directory is written as a normalised path;
- `printFile_sibling`: a file next to the directory.

Model: `sHomePath` is `CFile::GetHomePath()`.
-/
import ZNC.CString
import ZNC.Lib.Paths

namespace ZNC.PathPrefix

open CString Paths List

/-! ## Model -/

/-- `Replace_n("//", "/")`, up to a NUL -/
def replaceSlashes : CString → CString
  | [] => []
  | [c] => [c]
  | c :: d :: s => if c = ch '/' ∧ d = ch '/' then ch '/' :: replaceSlashes s else c :: replaceSlashes (d :: s)

/-- `sRet.substr(0, sRet.rfind('/'))` -/
def parentText (sRet : CString) : CString :=
  if ch '/' ∈ sRet then ((sRet.reverse.dropWhile (· ≠ ch '/')).drop 1).reverse else sRet

/-- one directory of the loop -/
def enterText (sRet sCurDir : CString) : CString :=
  if sCurDir = lit ".." then parentText sRet
  else if sCurDir ≠ [] ∧ sCurDir ≠ lit "." then sRet ++ lit "/" ++ sCurDir
  else sRet

/-- the loop over `sAddDir` -/
def changeDirLoop (sRet sCurDir : CString) : CString → CString
  | [] => sRet
  | c :: sAddDir =>
    if c = ch '/' then changeDirLoop (enterText sRet sCurDir) [] sAddDir else changeDirLoop sRet
      (sCurDir ++ [c]) sAddDir

/-- the home directory in use -/
def homeDir (sHomePath sHome : CString) : CString := if sHome = [] then sHomePath else sHome

def addDir (sHomePath sAdd sHome : CString) : CString :=
  if sAdd.startsWith (lit "~/") then homeDir sHomePath sHome ++ sAdd.drop 1 else sAdd

def changeDir (sHomePath sPath sAdd sHome : CString) : CString :=
  if sAdd = lit "~" then homeDir sHomePath sHome
  else
    let sAddDir := addDir sHomePath sAdd sHome
    let sRet : CString := if sAddDir.head? = some (ch '/') then [] else sPath
    let sRet := changeDirLoop (sRet.trimSuffix_n (lit "/")) [] (sAddDir ++ lit "/")
    if sRet = [] then lit "/" else sRet

/-- the directory without the slash of `sPrefix` -/
def dirText (sPath : CString) : CString := (replaceSlashes sPath.cStr).trimRight_n (lit "/")

def checkPathPrefix (sHomePath sPath sAdd sHomeDir : CString) : CString :=
  let sPrefix := dirText sPath ++ lit "/"
  let sAbsolutePath := changeDir sHomePath sPrefix sAdd sHomeDir
  if sAbsolutePath.startsWith sPrefix then sAbsolutePath else []

def printFile (sHomePath sDocRoot sFileName : CString) : Option CString :=
  if sDocRoot = [] then some sFileName
  else
    let sFilePath := checkPathPrefix sHomePath sDocRoot (sFileName.trimLeft (lit "/")) sDocRoot
    if sFilePath = [] then none else some sFilePath

/-! ## What is meant -/

/-- what a piece of a path means -/
def turn (sDir : CString) : Turn := if sDir = lit ".." then .up else if sDir = [] ∨ sDir = lit "." then .stay else .down

def allPieces (s : CString) : List CString := (pieces (ch '/') s).1 :: (pieces (ch '/') s).2

def pathText (dir : List CString) : CString := if dir = [] then lit "/" else flat (ch '/') dir

/-- names that can stand in a normalised path -/
def Normal (dir : List CString) : Prop := ∀ p ∈ dir, turn p = .down ∧ ch '/' ∉ p

/-- the directory that a text means, from the root -/
def normalised (sPath : CString) : List CString := resolve turn [] (allPieces sPath.cStr)

/-- nothing, or a normalised absolute path at the directory or below it -/
def Confined (sPath sRet : CString) : Prop :=
  sRet = [] ∨ ∃ dir, Normal dir ∧ sRet = pathText dir ∧ normalised sPath <+: dir

/-! ## The loop -/

variable (sPath s : CString) {dir : List CString}

theorem parentText_flat {first : CString} (hfirst : ch '/' ∉ first) (hdir : ∀ p ∈ dir, ch '/' ∉ p) :
    parentText (first ++ flat (ch '/') dir) = first ++ flat (ch '/') dir.dropLast := by
  induction dir using List.reverseRecOn with
  | nil => rw [flat_nil, append_nil, parentText, if_neg hfirst]; simp
  | append_singleton dir p _ =>
    have hp : ch '/' ∉ p := hdir p (mem_append_right _ mem_cons_self)
    have hne : ∀ c ∈ p.reverse, decide (c ≠ ch '/') = true := fun c hc =>
      decide_eq_true fun heq => hp (heq ▸ mem_reverse.1 hc)
    have hrev : (first ++ flat (ch '/') (dir ++ [p])).reverse =
      p.reverse ++ (ch '/' :: (first ++ flat (ch '/') dir).reverse) := by
      simp
    rw [parentText, if_pos (by simp), hrev, dropWhile_append_of_pos hne, dropLast_concat]
    simp

theorem enterText_flat {first : CString} (hfirst : ch '/' ∉ first) {dir : List CString} (hdir : ∀ p ∈ dir, ch '/' ∉ p)
    (sCurDir : CString) : enterText (first ++ flat (ch '/') dir) sCurDir =
      first ++ flat (ch '/') (enter turn dir sCurDir) := by
  unfold enterText enter turn
  by_cases hup : sCurDir = lit ".."
  · simp only [if_pos hup]
    exact parentText_flat hfirst hdir
  · by_cases hstay : sCurDir = [] ∨ sCurDir = lit "."
    · have hno : ¬(sCurDir ≠ [] ∧ sCurDir ≠ lit ".") := by tauto
      simp only [if_neg hup, if_pos hstay, if_neg hno]
    · have hyes : sCurDir ≠ [] ∧ sCurDir ≠ lit "." := by tauto
      simp only [if_neg hup, if_neg hstay, if_pos hyes]
      simp [lit, ch]

theorem enter_not_mem (hdir : ∀ p ∈ dir, ch '/' ∉ p) {sCurDir : CString} (hcur : ch '/' ∉ sCurDir) :
    ∀ p ∈ enter turn dir sCurDir, ch '/' ∉ p := by
  intro p hp
  have hmem : p ∈ dir ∨ p ∈ [sCurDir] := mem_resolve hp
  rcases hmem with hp | hp
  · exact hdir p hp
  · exact mem_singleton.1 hp ▸ hcur

/-- **The loop** walks along the pieces; `sCurDir` begins the next one. -/
theorem changeDirLoop_eq {first : CString} (hfirst : ch '/' ∉ first) (hdir : ∀ p ∈ dir, ch '/' ∉ p) {sCurDir : CString}
    (hcur : ch '/' ∉ sCurDir) (s : CString) :
    changeDirLoop (first ++ flat (ch '/') dir) sCurDir (s ++ lit "/") =
      first ++ flat (ch '/') (resolve turn dir ((sCurDir ++ (pieces (ch '/') s).1) :: (pieces (ch '/') s).2)) := by
  have hslash : lit "/" = [ch '/'] := rfl
  induction s generalizing dir sCurDir with
  | nil =>
    rw [nil_append, hslash, changeDirLoop, if_pos rfl, enterText_flat hfirst hdir]
    simp [changeDirLoop, pieces, resolve]
  | cons c s ih =>
    rw [cons_append, changeDirLoop]
    by_cases hc : c = ch '/'
    · subst hc
      rw [if_pos rfl, enterText_flat hfirst hdir, ih (enter_not_mem hdir hcur) not_mem_nil, pieces_cons_sep]
      simp [resolve]
    · have hcur' : ch '/' ∉ sCurDir ++ [c] := by simp [hcur, Ne.symm hc]
      rw [if_neg hc, ih hdir hcur', pieces_cons_of_ne hc]
      simp

/-! ## The comparison -/

theorem tolower_slash (c : UInt8) : tolower c = ch '/' ↔ c = ch '/' := tolower_eq_iff (by decide)

theorem asLower_eq_iff {w : CString} (hw : ∀ c ∈ w, isalpha c = false) (s : CString) : s.asLower = w ↔ s = w := by
  induction w generalizing s with
  | nil => exact map_eq_nil_iff
  | cons c w ih =>
    obtain ⟨hc, hw⟩ := forall_mem_cons.1 hw
    cases s with
    | nil => exact iff_of_false (fun h => nomatch h) fun h => nomatch h
    | cons b s =>
      have hcons : asLower (b :: s) = tolower b :: asLower s := rfl
      rw [hcons, List.cons.injEq, List.cons.injEq, tolower_eq_iff hc, ih hw]

theorem turn_asLower (p : CString) : turn p.asLower = turn p := by
  have hup : p.asLower = lit ".." ↔ p = lit ".." := asLower_eq_iff (by decide +kernel) p
  have hdot : p.asLower = lit "." ↔ p = lit "." := asLower_eq_iff (by decide +kernel) p
  have hnil : p.asLower = [] ↔ p = [] := asLower_eq_iff (by decide +kernel) p
  simp only [turn, hup, hdot, hnil]

theorem replaceSlashes_subset : ∀ c ∈ replaceSlashes s, c ∈ s := by
  fun_induction replaceSlashes s with
  | case1 => exact fun c hc => hc
  | case2 d => exact fun c hc => hc
  | case3 c d s h ih =>
    intro b hb
    rcases mem_cons.1 hb with rfl | hb
    · exact mem_cons.2 (.inl h.1.symm)
    · exact mem_cons_of_mem _ (mem_cons_of_mem _ (ih b hb))
  | case4 c d s h ih =>
    intro b hb
    rcases mem_cons.1 hb with rfl | hb
    · exact mem_cons_self
    · exact mem_cons_of_mem _ (ih b hb)

theorem not_mem_dirText : (0 : UInt8) ∉ dirText sPath := by
  intro h
  have hmem : (0 : UInt8) ∈ replaceSlashes sPath.cStr := by
    have hsub := (dropWhile_suffix (l := (replaceSlashes sPath.cStr).reverse) fun c => decide (c ∈ lit "/")).subset
    exact mem_reverse.1 (hsub (mem_reverse.1 h))
  have hcstr := mem_takeWhile_imp (replaceSlashes_subset _ _ hmem)
  simp at hcstr

/-- `t` is below `d` if letter case does not count -/
def Enters (d t : CString × List CString) : Prop :=
  d.1.asLower = t.1.asLower ∧ d.2.map asLower <+: t.2.map asLower ∧ d.2.length < t.2.length

instance (d t : CString × List CString) : Decidable (Enters d t) := inferInstanceAs (Decidable (_ ∧ _))

def dirPieces (sPath : CString) : CString × List CString := pieces (ch '/') (dirText sPath)

/-- **The comparison of texts** is one of pieces, without letter case. -/
theorem startsWith_dir_iff :
    s.startsWith (dirText sPath ++ lit "/") = true ↔ Enters (dirPieces sPath) (pieces (ch '/') s) := by
  have hslash : lit "/" = [ch '/'] := rfl
  have hno : (0 : UInt8) ∉ dirText sPath ++ lit "/" := by
    rw [mem_append, not_or]
    exact ⟨not_mem_dirText sPath, by decide⟩
  rw [startsWith_iff hno]
  obtain ⟨hd, hd1, hd2⟩ := @pieces_spec _ (ch '/') _ (dirText sPath).asLower
  obtain ⟨hs, hs1, hs2⟩ := @pieces_spec _ (ch '/') _ s.asLower
  have happ : (dirText sPath ++ lit "/").asLower = (dirText sPath).asLower ++ [ch '/'] := by
    rw [hslash, asLower, map_append]
    rfl
  rw [happ, ← hd, ← hs, prefix_iff hd1 hs1 hd2 hs2]
  simp only [asLower, pieces_map tolower_slash, Enters, dirPieces, length_map]
  exact Iff.rfl

/-! ## Where `ChangeDir` arrives -/

/-- the pieces of the directory from which `sAddDir` is walked -/
def startPieces (sPath sAddDir : CString) : CString × List CString :=
  if sAddDir.head? = some (ch '/') then ([], []) else dirPieces sPath

/-- the path that `sAdd` names from the directory -/
def target (sHomePath sPath sAdd sHome : CString) : CString × List CString :=
  if sAdd = lit "~" then pieces (ch '/') (homeDir sHomePath sHome)
  else
    let sAddDir := addDir sHomePath sAdd sHome
    ((startPieces sPath sAddDir).1, resolve turn (startPieces sPath sAddDir).2 (allPieces sAddDir))

theorem trimSuffix_slash : (s ++ lit "/").trimSuffix_n (lit "/") = s := by
  have hslash : lit "/" = [ch '/'] := rfl
  rw [trimSuffix_n, right, hslash]
  simp

theorem startPieces_spec (sAddDir : CString) :
    ((if sAddDir.head? = some (ch '/') then [] else dirText sPath ++ lit "/" : CString).trimSuffix_n (lit "/") =
        (startPieces sPath sAddDir).1 ++ flat (ch '/') (startPieces sPath sAddDir).2) ∧
      ch '/' ∉ (startPieces sPath sAddDir).1 ∧ ∀ p ∈ (startPieces sPath sAddDir).2, ch '/' ∉ p := by
  unfold startPieces
  by_cases h : sAddDir.head? = some (ch '/')
  · rw [if_pos h, if_pos h]
    exact ⟨by decide, not_mem_nil, fun p hp => nomatch hp⟩
  · rw [if_neg h, if_neg h, trimSuffix_slash]
    obtain ⟨hs, h1, h2⟩ := @pieces_spec _ (ch '/') _ (dirText sPath)
    exact ⟨hs.symm, h1, h2⟩

theorem changeDir_eq (sHomePath sPath : CString) {sAdd : CString} (sHome : CString) (h : sAdd ≠ lit "~") :
    changeDir sHomePath (dirText sPath ++ lit "/") sAdd sHome =
      if target sHomePath sPath sAdd sHome = ([], []) then lit "/"
      else (target sHomePath sPath sAdd sHome).1 ++ flat (ch '/') (target sHomePath sPath sAdd sHome).2 := by
  obtain ⟨hstart, h1, h2⟩ := startPieces_spec sPath (addDir sHomePath sAdd sHome)
  have hloop := changeDirLoop_eq h1 h2 not_mem_nil (addDir sHomePath sAdd sHome)
  rw [← hstart] at hloop
  simp only [changeDir, if_neg h, target, hloop, nil_append, allPieces]
  generalize resolve turn (startPieces sPath (addDir sHomePath sAdd sHome)).2
    ((pieces (ch '/') (addDir sHomePath sAdd sHome)).1 :: (pieces (ch '/') (addDir sHomePath sAdd sHome)).2) = dir
  generalize (startPieces sPath (addDir sHomePath sAdd sHome)).1 = first
  cases first <;> cases dir <;> simp

theorem target_not_mem (sHomePath sPath sAdd sHome : CString) :
    ch '/' ∉ (target sHomePath sPath sAdd sHome).1 ∧ ∀ p ∈ (target sHomePath sPath sAdd sHome).2, ch '/' ∉ p := by
  unfold target
  split
  · exact (pieces_spec _).2
  · obtain ⟨-, h1, h2⟩ := startPieces_spec sPath (addDir sHomePath sAdd sHome)
    refine ⟨h1, fun p hp => ?_⟩
    obtain ⟨-, hadd1, hadd2⟩ := @pieces_spec _ (ch '/') _ (addDir sHomePath sAdd sHome)
    rcases mem_resolve hp with hp | hp
    · exact h2 p hp
    · rcases mem_cons.1 hp with rfl | hp
      · exact hadd1
      · exact hadd2 p hp

theorem changeDir_pieces {sHomePath sPath sAdd sHome : CString}
    (h : sAdd = lit "~" ∨ target sHomePath sPath sAdd sHome ≠ ([], [])) :
    pieces (ch '/') (changeDir sHomePath (dirText sPath ++ lit "/") sAdd sHome) =
      target sHomePath sPath sAdd sHome := by
  by_cases htilde : sAdd = lit "~"
  · rw [changeDir, if_pos htilde, target, if_pos htilde]
  · obtain ⟨h1, h2⟩ := target_not_mem sHomePath sPath sAdd sHome
    rw [changeDir_eq sHomePath sPath sHome htilde, if_neg (h.resolve_left htilde), pieces_append h1 h2]

/-! ## The directory -/

/-- the pieces that are not empty -/
def names (s : CString) : List CString := (allPieces s).filter (· ≠ [])

theorem allPieces_cons_slash : allPieces (ch '/' :: s) = [] :: allPieces s := by
  rw [allPieces, pieces_cons_sep]
  rfl

theorem names_cons_slash : names (ch '/' :: s) = names s := by
  rw [names, allPieces_cons_slash]
  rfl

theorem names_cons_of_ne {c : UInt8} (hc : c ≠ ch '/') (s : CString) :
    names (c :: s) = (c :: (pieces (ch '/') s).1) :: (pieces (ch '/') s).2.filter (· ≠ []) := by
  rw [names, allPieces, pieces_cons_of_ne hc]
  rfl

theorem filter_pieces_eq {s t : CString} (hfirst : (pieces (ch '/') s).1 = (pieces (ch '/') t).1)
    (hnames : names s = names t) :
    (pieces (ch '/') s).2.filter (· ≠ []) = (pieces (ch '/') t).2.filter (· ≠ []) := by
  rw [names, names, allPieces, allPieces, hfirst, filter_cons, filter_cons] at hnames
  split at hnames
  · exact (List.cons.inj hnames).2
  · exact hnames

theorem names_replaceSlashes :
    (pieces (ch '/') (replaceSlashes s)).1 = (pieces (ch '/') s).1 ∧ names (replaceSlashes s) = names s := by
  fun_induction replaceSlashes s with
  | case1 => exact ⟨rfl, rfl⟩
  | case2 d => exact ⟨rfl, rfl⟩
  | case3 c d s h ih =>
    obtain ⟨rfl, rfl⟩ := h
    exact ⟨by rw [pieces_cons_sep, pieces_cons_sep], by rw [names_cons_slash, names_cons_slash, names_cons_slash, ih.2]⟩
  | case4 c d s h ih =>
    by_cases hc : c = ch '/'
    · subst hc
      exact ⟨by rw [pieces_cons_sep, pieces_cons_sep], by rw [names_cons_slash, names_cons_slash, ih.2]⟩
    · refine ⟨by rw [pieces_cons_of_ne hc, pieces_cons_of_ne hc, ih.1], ?_⟩
      rw [names_cons_of_ne hc, names_cons_of_ne hc, ih.1, filter_pieces_eq ih.1 ih.2]

theorem allPieces_append_slash : allPieces (s ++ [ch '/']) = allPieces s ++ [[]] := by
  induction s with
  | nil => rfl
  | cons c s ih =>
    by_cases hc : c = ch '/'
    · subst hc
      rw [cons_append, allPieces_cons_slash, allPieces_cons_slash, ih, cons_append]
    · simp only [allPieces, cons_append, pieces_cons_of_ne hc] at ih ⊢
      obtain ⟨h1, h2⟩ := List.cons.inj ih
      rw [h1, h2]

theorem names_append_slash : names (s ++ [ch '/']) = names s := by
  rw [names, allPieces_append_slash, filter_append]
  simp [names]

theorem names_trimRight : names (s.trimRight_n (lit "/")) = names s := by
  induction s using List.reverseRecOn with
  | nil => rfl
  | append_singleton s c ih =>
    by_cases hc : c = ch '/'
    · have htrim : trimRight_n (s ++ [c]) (lit "/") = trimRight_n s (lit "/") := by
        subst hc
        simp [trimRight_n, lit, ch]
      rw [htrim, ih, hc, names_append_slash]
    · have htrim : trimRight_n (s ++ [c]) (lit "/") = s ++ [c] := by
        have hno : c ∉ lit "/" := fun h => hc (mem_singleton.1 h)
        simp [trimRight_n, hno]
      rw [htrim]

/-- **The directory of a text,** read from its pieces. -/
theorem normalised_eq {sPath : CString} (hfirst : (dirPieces sPath).1 = []) (hdir : Normal (dirPieces sPath).2) :
    normalised sPath = (dirPieces sPath).2 := by
  have hstay : turn [] = .stay := by decide
  have hnames : names sPath.cStr = names (dirText sPath) := by
    rw [dirText, names_trimRight, (names_replaceSlashes sPath.cStr).2]
  have hresolve : ∀ s, resolve turn [] (allPieces s) = resolve turn [] (names s) := by
    intro s
    rw [← @resolve_filter _ turn [] (names s), names, filter_filter, ← resolve_filter]
    congr 1
    refine filter_congr fun p _ => ?_
    by_cases hp : p = []
    · simp [hp, hstay]
    · simp [hp]
  have hpieces : allPieces (dirText sPath) = [] :: (dirPieces sPath).2 := by
    rw [← hfirst]
    rfl
  calc normalised sPath = resolve turn [] (names sPath.cStr) := hresolve _
    _ = resolve turn [] (allPieces (dirText sPath)) := by rw [hnames, hresolve]
    _ = resolve turn [] (dirPieces sPath).2 := by rw [hpieces, resolve_cons, enter, hstay]
    _ = (dirPieces sPath).2 := resolve_of_down (fun p hp => (hdir p hp).1) []

/-! ## Confinement -/

theorem confined_iff {sPath s : CString} (hs : Enters (dirPieces sPath) (pieces (ch '/') s)) :
    Confined sPath s ↔
      (dirPieces sPath).1 = [] ∧ Normal (dirPieces sPath).2 ∧ (dirPieces sPath).2 <+: (pieces (ch '/') s).2 ∧
        (s = lit "/" ∨ Normal (pieces (ch '/') s).2) := by
  obtain ⟨hfirst, hbegin, hlen⟩ := hs
  obtain ⟨htext, hslash1, hslash2⟩ := @pieces_spec _ (ch '/') _ s
  constructor
  · rintro (rfl | ⟨dir, hdir, rfl, hbelow⟩)
    · exact absurd hlen (Nat.not_lt_zero _)
    · by_cases hroot : dir = []
      · have hsingle : pieces (ch '/') (lit "/") = ([], [[]]) := by decide
        rw [pathText, if_pos hroot, hsingle] at hlen hfirst ⊢
        have hnil : (dirPieces sPath).2 = [] := length_eq_zero_iff.1 (Nat.lt_one_iff.1 hlen)
        rw [hnil]
        exact ⟨map_eq_nil_iff.1 hfirst, fun p hp => absurd hp not_mem_nil, nil_prefix, Or.inl rfl⟩
      · have hpieces : pieces (ch '/') (pathText dir) = ([], dir) := by
          rw [pathText, if_neg hroot, ← nil_append (flat (ch '/') dir)]
          exact pieces_append not_mem_nil fun p hp => (hdir p hp).2
        rw [hpieces] at hfirst hbegin ⊢
        have hnil : (dirPieces sPath).1 = [] := map_eq_nil_iff.1 hfirst
        have hnormal : Normal (dirPieces sPath).2 := by
          intro p hp
          refine ⟨?_, (pieces_spec (dirText sPath)).2.2 p hp⟩
          obtain ⟨q, hq, heq⟩ := mem_map.1 (hbegin.subset (mem_map_of_mem hp))
          rw [← turn_asLower, ← heq, turn_asLower]
          exact (hdir q hq).1
        rw [normalised_eq hnil hnormal] at hbelow
        exact ⟨hnil, hnormal, hbelow, .inr hdir⟩
  · rintro ⟨hnil, hnormal, hbelow, hclean⟩
    right
    rcases hclean with rfl | hclean
    · have hsingle : pieces (ch '/') (lit "/") = ([], [[]]) := by decide
      rw [hsingle] at hlen
      have hempty : (dirPieces sPath).2 = [] := length_eq_zero_iff.1 (Nat.lt_one_iff.1 hlen)
      refine ⟨[], fun p hp => absurd hp not_mem_nil, rfl, ?_⟩
      rw [normalised_eq hnil hnormal, hempty]
    · refine ⟨(pieces (ch '/') s).2, hclean, ?_, ?_⟩
      · have hne : (pieces (ch '/') s).2 ≠ [] := fun h => by rw [h] at hlen; exact Nat.not_lt_zero _ hlen
        rw [hnil] at hfirst
        have hs1 : (pieces (ch '/') s).1 = [] := map_eq_nil_iff.1 hfirst.symm
        rw [hs1, nil_append] at htext
        rw [pathText, if_neg hne, htext]
      · rw [normalised_eq hnil hnormal]
        exact hbelow

theorem target_normal {sHomePath sPath sAdd sHome : CString} (h : sAdd ≠ lit "~") (hdir : Normal (dirPieces sPath).2) :
    Normal (target sHomePath sPath sAdd sHome).2 := by
  intro p hp
  refine ⟨?_, (target_not_mem sHomePath sPath sAdd sHome).2 p hp⟩
  rw [target, if_neg h] at hp
  refine resolve_down ?_ _ p hp
  unfold startPieces
  split
  · exact fun q hq => nomatch hq
  · exact fun q hq => (hdir q hq).1

/-- **Confinement.** What is returned is a path in the directory exactly if `sAdd` does not lead below the directory by names that
differ from its names in letter case, the directory is written as a normalised path, and so is the home directory that `~` stands
for. -/
theorem checkPathPrefix_iff (sHomePath sPath sAdd sHome : CString) :
    Confined sPath (checkPathPrefix sHomePath sPath sAdd sHome) ↔
      (Enters (dirPieces sPath) (target sHomePath sPath sAdd sHome) →
        (dirPieces sPath).1 = [] ∧ Normal (dirPieces sPath).2 ∧
          (dirPieces sPath).2 <+: (target sHomePath sPath sAdd sHome).2 ∧
            (sAdd = lit "~" → homeDir sHomePath sHome = lit "/" ∨ Normal (target sHomePath sPath sAdd sHome).2)) := by
  have hnothing : Confined sPath [] := .inl rfl
  by_cases hroot : sAdd ≠ lit "~" ∧ target sHomePath sPath sAdd sHome = ([], [])
  · -- it leads to the root, which is only below the root
    obtain ⟨htilde, htarget⟩ := hroot
    have hno : ¬Enters (dirPieces sPath) (target sHomePath sPath sAdd sHome) := by
      rw [htarget]
      exact fun h => Nat.not_lt_zero _ h.2.2
    refine iff_of_true ?_ fun h => absurd h hno
    simp only [checkPathPrefix, changeDir_eq sHomePath sPath sHome htilde, if_pos htarget]
    split
    · rename_i hstarts
      have hsingle : pieces (ch '/') (lit "/") = ([], [[]]) := by decide
      have henters := (startsWith_dir_iff sPath (lit "/")).1 hstarts
      refine (confined_iff henters).2 ?_
      obtain ⟨hfirst, -, hlen⟩ := henters
      rw [hsingle] at hfirst hlen
      have hempty : (dirPieces sPath).2 = [] := length_eq_zero_iff.1 (Nat.lt_one_iff.1 hlen)
      rw [hempty]
      exact ⟨map_eq_nil_iff.1 hfirst, fun p hp => absurd hp not_mem_nil, nil_prefix, Or.inl rfl⟩
    · exact hnothing
  · have hcases : sAdd = lit "~" ∨ target sHomePath sPath sAdd sHome ≠ ([], []) := by tauto
    have hpieces := changeDir_pieces hcases
    have hstarts := startsWith_dir_iff sPath (changeDir sHomePath (dirText sPath ++ lit "/") sAdd sHome)
    rw [hpieces] at hstarts
    by_cases henters : Enters (dirPieces sPath) (target sHomePath sPath sAdd sHome)
    · have hconfined := confined_iff (hpieces.symm ▸ henters)
      rw [hpieces] at hconfined
      simp only [checkPathPrefix, if_pos (hstarts.2 henters), hconfined, henters, true_implies]
      refine and_congr_right fun hfirst => and_congr_right fun hnormal => and_congr_right fun _ => ?_
      by_cases htilde : sAdd = lit "~"
      · have hhome : changeDir sHomePath (dirText sPath ++ lit "/") sAdd sHome = homeDir sHomePath sHome := by
          rw [changeDir, if_pos htilde]
        rw [hhome]
        exact ⟨fun h _ => h, fun h => h htilde⟩
      · exact iff_of_true (.inr (target_normal htilde hnormal)) fun h => absurd h htilde
    · refine iff_of_true ?_ fun h => absurd h henters
      simp only [checkPathPrefix, if_neg fun h => henters (hstarts.1 h)]
      exact hnothing

theorem checkPathPrefix_normal (sHomePath sHome : CString) {sPath sAdd : CString} (hadd : sAdd ≠ lit "~")
    (hfirst : (dirPieces sPath).1 = []) (hdir : Normal (dirPieces sPath).2) :
    checkPathPrefix sHomePath sPath sAdd sHome = [] ∨
      ∃ dir, Normal dir ∧ checkPathPrefix sHomePath sPath sAdd sHome = pathText dir ∧
        (normalised sPath).map asLower <+: dir.map asLower := by
  by_cases hstarts : (changeDir sHomePath (dirText sPath ++ lit "/") sAdd sHome).startsWith
    (dirText sPath ++ lit "/") = true
  · right
    obtain ⟨hlower, hbelow, hlen⟩ := (startsWith_dir_iff sPath _).1 hstarts
    refine ⟨(target sHomePath sPath sAdd sHome).2, target_normal hadd hdir, ?_⟩
    simp only [checkPathPrefix, if_pos hstarts, normalised_eq hfirst hdir]
    by_cases hroot : target sHomePath sPath sAdd sHome = ([], [])
    · have hsingle : pieces (ch '/') (lit "/") = ([], [[]]) := by decide
      rw [changeDir_eq sHomePath sPath sHome hadd, if_pos hroot, hsingle] at hlen
      have hempty : (dirPieces sPath).2 = [] := length_eq_zero_iff.1 (Nat.lt_one_iff.1 hlen)
      rw [changeDir_eq sHomePath sPath sHome hadd, if_pos hroot, hroot, hempty]
      exact ⟨rfl, nil_prefix⟩
    · rw [changeDir_pieces (.inr hroot)] at hlower hbelow hlen
      have hne : (target sHomePath sPath sAdd sHome).2 ≠ [] := fun h => by rw [h] at hlen; exact Nat.not_lt_zero _ hlen
      rw [hfirst] at hlower
      have hnil : (target sHomePath sPath sAdd sHome).1 = [] := map_eq_nil_iff.1 hlower.symm
      rw [changeDir_eq sHomePath sPath sHome hadd, if_neg hroot, hnil, nil_append, pathText, if_neg hne]
      exact ⟨rfl, hbelow⟩
  · left
    simp only [checkPathPrefix, if_neg hstarts]

/-- a path with a detour, which stays below the directory -/
theorem checkPathPrefix_www :
    checkPathPrefix [] (lit "/srv/www") (lit "pub/../key") [] = lit "/srv/www/key" ∧
      (checkPathPrefix [] (lit "/srv/www") (lit "pub/../key") [] = [] ∨ ∃ dir, Normal dir ∧
        checkPathPrefix [] (lit "/srv/www") (lit "pub/../key") [] = pathText dir ∧
          (normalised (lit "/srv/www")).map asLower <+: dir.map asLower) :=
  ⟨by decide, checkPathPrefix_normal [] [] (by decide) (by decide)
    (show ∀ p ∈ (dirPieces (lit "/srv/www")).2, turn p = .down ∧ ch '/' ∉ p by decide)⟩

/-- the web server, for a file next to its directory -/
theorem printFile_sibling :
    printFile [] (lit "/srv/www") (lit "/../WWW/key") = some (lit "/srv/WWW/key") ∧
      ¬Confined (lit "/srv/www") (checkPathPrefix [] (lit "/srv/www") (lit "../WWW/key") (lit "/srv/www")) := by
  have hfile : checkPathPrefix [] (lit "/srv/www") (lit "../WWW/key") (lit "/srv/www") = lit "/srv/WWW/key" := by
    decide
  refine ⟨by decide, fun h => ?_⟩
  rw [hfile] at h
  have henters : Enters (dirPieces (lit "/srv/www")) (pieces (ch '/') (lit "/srv/WWW/key")) := by decide
  have hbelow := ((confined_iff henters).1 h).2.2.1
  revert hbelow
  decide

end ZNC.PathPrefix
