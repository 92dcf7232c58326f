/-
The files of a template: the search paths of `CTemplate` and `CTemplate::ExpandFile` of `src/Template.cpp`, with the static files of
`src/WebModules.cpp`.

`MakePath` writes a search path as a normalised directory with a slash at its end. `ExpandFile` goes through the search paths and
returns the first file that exists and starts with its search path. The document root of the web server is empty, so nothing else
confines a static file. The comparison is `StartsWith`, which ignores letter case.

Results:
- `makePath_abs`, `lsbPaths_eq`: what the search paths are;
- `expandFile_iff`: when the loop stops at the first search directory that contains the file;
- `expandFile_plain`: it does for a name that begins with no `~` and has no `..`.

The file system and the variables of the template are parameters.
-/
import ZNC.PathPrefix

namespace ZNC.ExpandFile

open CString Paths PathPrefix List

/-! ## Model -/

def resolveLiteral (getValue : CString → CString) (sString : CString) : CString :=
  if sString.startsWith (lit "**") then sString.drop 1
  else if sString.startsWith (lit "*") then getValue (sString.drop 1)
  else sString

def makePath (sHomePath sPath : CString) : CString :=
  let sRet := changeDir sHomePath (lit "./") (sPath ++ lit "/") []
  if sRet ≠ [] ∧ sRet.endsWith (lit "/") = false then sRet ++ lit "/" else sRet

structure AbsPath where
  sPath : CString
  abs : sPath.head? = some (ch '/')

/-- `AppendPath(sPath, bIncludesOnly)` and `PrependPath(sPath, bIncludesOnly)` -/
inductive PathOp where
  | appendPath (sPath : AbsPath) (bIncludesOnly : Bool)
  | prependPath (sPath : AbsPath) (bIncludesOnly : Bool)

def PathOp.apply (sHomePath : CString) (m_lsbPaths : List (CString × Bool)) : PathOp → List (CString × Bool)
  | .appendPath sPath bIncludesOnly => m_lsbPaths ++ [(makePath sHomePath sPath.sPath, bIncludesOnly)]
  | .prependPath sPath bIncludesOnly => (makePath sHomePath sPath.sPath, bIncludesOnly) :: m_lsbPaths

def lsbPaths (sHomePath : CString) (ops : List PathOp) : List (CString × Bool) := ops.foldl (PathOp.apply sHomePath) []

/-- the loop of `ExpandFile`; `files` is `CFile::Exists` -/
def expandLoop (sHomePath : CString) (files : CString → Bool) (bFromInc : Bool) (sFile : CString) :
    List (CString × Bool) → CString
  | [] => []
  | (sRoot, bIncludesOnly) :: m_lsbPaths =>
    let sFilePath := changeDir sHomePath sRoot sFile []
    let sRoot := if sRoot ≠ [] ∧ sRoot.endsWith (lit "/") = false then sRoot ++ lit "/" else sRoot
    if bIncludesOnly && !bFromInc then expandLoop sHomePath files bFromInc sFile m_lsbPaths
    else if files sFilePath && (sRoot = [] || sFilePath.startsWith sRoot) then sFilePath
    else expandLoop sHomePath files bFromInc sFile m_lsbPaths

def fileName (getValue : CString → CString) (sFilename : CString) : CString :=
  (resolveLiteral getValue sFilename).trimLeft (lit "/")

def expandFile (sHomePath : CString) (files : CString → Bool) (getValue : CString → CString)
    (m_lsbPaths : List (CString × Bool))
    (sFilename : CString) (bFromInc : Bool := false) : CString :=
  expandLoop sHomePath files bFromInc (fileName getValue sFilename) m_lsbPaths

/-- `PrintStaticFile(sPath)` with the paths of `SetPaths`: the file that is sent -/
def printStaticFile (sHomePath : CString) (files : CString → Bool) (getValue : CString → CString)
    (vsDirs : List AbsPath)
    (sPath : CString) : Option CString :=
  printFile sHomePath [] (expandFile sHomePath files getValue
    (lsbPaths sHomePath (vsDirs.map fun sDir => .appendPath sDir false)) (sPath.trimLeft (lit "/")))

/-! ## What is meant -/

/-- the directory that an absolute path means -/
def dirOf (sPath : CString) : List CString := resolve turn [] (allPieces sPath)

structure SearchDir where
  dir : List CString
  bIncludesOnly : Bool
deriving DecidableEq

/-- the search directories, in their order -/
def searchDirs (ops : List PathOp) : List SearchDir :=
  ops.foldl (fun dirs op => match op with
    | .appendPath sPath bIncludesOnly => dirs ++ [⟨dirOf sPath.sPath, bIncludesOnly⟩]
    | .prependPath sPath bIncludesOnly => ⟨dirOf sPath.sPath, bIncludesOnly⟩ :: dirs) []

/-- a directory with a slash at its end -/
def rootText (dir : List CString) : CString := if dir = [] then lit "/" else flat (ch '/') dir ++ lit "/"

/-- names below a directory; below the root there is the root, too -/
def Below (dir names : List CString) : Prop := dir <+: names ∧ (names = dir → dir = [])

instance (dir names : List CString) : Decidable (Below dir names) := inferInstanceAs (Decidable (_ ∧ _))

/-- a normalised absolute path below the directory -/
def Inside (dir : List CString) (sPath : CString) : Prop :=
  ∃ names, Normal names ∧ sPath = pathText names ∧ Below dir names

/-- the first element with a property -/
def First {α : Type} (P : α → Prop) (xs : List α) (x : α) : Prop := ∃ ys zs, xs = ys ++ x :: zs ∧ (∀ y ∈ ys, ¬P y) ∧ P x

section Search

variable (sHomePath : CString) (files : CString → Bool) (bFromInc : Bool) (sFile : CString)

/-- the path that the file has from a search directory -/
def fileIn (d : SearchDir) : CString := changeDir sHomePath (rootText d.dir) sFile []

/-- the search directory is used, and the path exists -/
def Exists (d : SearchDir) : Prop := (d.bIncludesOnly && !bFromInc) = false ∧ files (fileIn sHomePath sFile d) = true

/-- the search directory has the file -/
def Contains (d : SearchDir) : Prop := Exists sHomePath files bFromInc sFile d ∧ Inside d.dir (fileIn sHomePath sFile d)

/-- the loop stops at the search directory -/
def Found (d : SearchDir) : Prop :=
  Exists sHomePath files bFromInc sFile d ∧ (fileIn sHomePath sFile d).startsWith (rootText d.dir) = true

/-- the names to which the file name leads from a search directory -/
def walk (d : SearchDir) : List CString :=
  if sFile = lit "~" then dirOf sHomePath
  else resolve turn (if (addDir sHomePath sFile []).head? = some (ch '/') then [] else d.dir)
    (allPieces (addDir sHomePath sFile []))

/-- these names are below the search directory, and if they are those of the home directory, it is written as a normalised path -/
def Keeps (d : SearchDir) : Prop :=
  Below d.dir (walk sHomePath sFile d) ∧ (sFile = lit "~" → sHomePath = pathText (dirOf sHomePath))

end Search

/-! ## Search paths -/

theorem normal_nil : Normal [] := fun _ h => nomatch h

variable {dir : List CString}

theorem normal_resolve (hdir : Normal dir) (s : CString) :
    Normal (resolve turn dir (allPieces s)) := by
  intro p hp
  refine ⟨resolve_down (fun q hq => (hdir q hq).1) _ p hp, ?_⟩
  obtain ⟨-, hfirst, hrest⟩ := @pieces_spec _ (ch '/') _ s
  rcases mem_resolve hp with hp | hp
  · exact (hdir p hp).2
  · rcases mem_cons.1 hp with rfl | hp
    · exact hfirst
    · exact hrest p hp

theorem normal_dirOf (sPath : CString) : Normal (dirOf sPath) := normal_resolve normal_nil sPath

theorem flat_ne_nil (h : dir ≠ []) : flat (ch '/') dir ≠ [] := by
  cases dir with
  | nil => exact absurd rfl h
  | cons p dir => exact cons_ne_nil _ _

theorem pathText_eq (dir : List CString) :
    (if flat (ch '/') dir = [] then lit "/" else flat (ch '/') dir) = pathText dir := by
  cases dir with
  | nil => rfl
  | cons p dir => rw [pathText, if_neg (by simp), if_neg (by simp)]

/-- **A walk of `ChangeDir`** from a normalised directory. -/
theorem changeDir_walk (sHomePath : CString) {sPath sAdd : CString} (hadd : sAdd ≠ lit "~") (hdir : Normal dir)
    (hstart : trimSuffix_n (if (addDir sHomePath sAdd []).head? = some (ch '/') then [] else sPath) (lit "/") =
      flat (ch '/') dir) :
    changeDir sHomePath sPath sAdd [] = pathText (resolve turn dir (allPieces (addDir sHomePath sAdd []))) := by
  have hloop := changeDirLoop_eq not_mem_nil (fun p hp => (hdir p hp).2) not_mem_nil
    (addDir sHomePath sAdd [])
  rw [nil_append, nil_append] at hloop
  simp only [changeDir, if_neg hadd, hstart, hloop, nil_append]
  exact pathText_eq _

theorem endsWith_flat (hdir : Normal dir) (hne : dir ≠ []) :
    endsWith (flat (ch '/') dir) (lit "/") = false := by
  obtain ⟨ps, p, rfl⟩ := eq_nil_or_concat dir |>.resolve_left hne
  obtain ⟨hdown, hslash⟩ := hdir p (by simp)
  have hp : p ≠ [] := fun h => by rw [h] at hdown; exact nomatch hdown
  obtain ⟨q, c, rfl⟩ := eq_nil_or_concat p |>.resolve_left hp
  have hc : c ≠ ch '/' := fun h => hslash (by simp [h])
  have hright : right (flat (ch '/') (ps.concat (q.concat c))) 1 = [c] := by
    rw [right]
    simp
  have hcut : (cStr (lit "/")).asLower = lit "/" := by decide
  rw [endsWith, show (lit "/").length = 1 from rfl, hright, equals, hcut, decide_eq_false_iff_not]
  intro heq
  by_cases h0 : c = 0
  · rw [h0] at heq
    exact absurd heq (by decide)
  · have hone : cStr [c] = [c] := by simp [cStr, h0]
    have hletters : ∀ b ∈ lit "/", isalpha b = false := by
      intro b hb
      rw [mem_singleton.1 hb]
      decide
    rw [hone, asLower_eq_iff hletters] at heq
    exact hc (List.cons.inj heq).1

/-- **`MakePath`** writes a normalised directory, with a slash. -/
theorem makePath_abs (sHomePath : CString) (sPath : AbsPath) :
    makePath sHomePath sPath.sPath = rootText (dirOf sPath.sPath) := by
  obtain ⟨s, habs⟩ := sPath
  have hslash : lit "/" = [ch '/'] := rfl
  have hhead : (s ++ lit "/").head? = some (ch '/') := by rw [head?_append, habs]; rfl
  have hadd : s ++ lit "/" ≠ lit "~" := fun h => by rw [h] at hhead; exact absurd hhead (by decide)
  have haddDir : addDir sHomePath (s ++ lit "/") [] = s ++ lit "/" := by
    rw [addDir, if_neg]
    intro htilde
    rw [startsWith_iff (by decide)] at htilde
    cases s with
    | nil => exact nomatch habs
    | cons c s =>
      -- the first byte is a slash
      rw [Option.some.inj habs] at htilde
      exact absurd (cons_prefix_cons.1 htilde).1 (by decide)
  have hdirOf : resolve turn [] (allPieces (s ++ lit "/")) = dirOf s := by
    rw [hslash, allPieces_append_slash, resolve, foldl_append]
    rfl
  have hpath : changeDir sHomePath (lit "./") (s ++ lit "/") [] = pathText (dirOf s) := by
    rw [← hdirOf]
    nth_rewrite 2 [← haddDir]
    refine changeDir_walk sHomePath hadd normal_nil ?_
    rw [haddDir, if_pos hhead]
    rfl
  simp only [makePath, hpath]
  by_cases hroot : dirOf s = []
  · rw [hroot]
    decide
  · rw [pathText, if_neg hroot, rootText, if_neg hroot, endsWith_flat (normal_dirOf s) hroot,
      if_pos ⟨flat_ne_nil hroot, rfl⟩]

theorem lsbPaths_eq (sHomePath : CString) (ops : List PathOp) :
    lsbPaths sHomePath ops = (searchDirs ops).map fun d => (rootText d.dir, d.bIncludesOnly) := by
  induction ops using List.reverseRecOn with
  | nil => rfl
  | append_singleton ops op ih =>
    rw [lsbPaths] at ih
    rw [lsbPaths, searchDirs, foldl_append, foldl_append, ih, ← searchDirs]
    cases op with
    | appendPath sPath bIncludesOnly => simp [PathOp.apply, makePath_abs]
    | prependPath sPath bIncludesOnly => simp [PathOp.apply, makePath_abs]

theorem normal_searchDirs (ops : List PathOp) : ∀ d ∈ searchDirs ops, Normal d.dir := by
  induction ops using List.reverseRecOn with
  | nil => exact fun d hd => nomatch hd
  | append_singleton ops op ih =>
    intro d hd
    rw [searchDirs, foldl_append, ← searchDirs] at hd
    cases op with
    | appendPath sPath bIncludesOnly =>
      rcases mem_append.1 hd with hd | hd
      · exact ih d hd
      · rw [mem_singleton.1 hd]
        exact normal_dirOf _
    | prependPath sPath bIncludesOnly =>
      rcases mem_cons.1 hd with hd | hd
      · rw [hd]
        exact normal_dirOf _
      · exact ih d hd

/-! ## File names -/

section Search

variable (sHomePath : CString) (files : CString → Bool) (bFromInc : Bool) (sFile : CString)

theorem changeDir_root {d : SearchDir} (hd : Normal d.dir) (hadd : sFile ≠ lit "~") :
    fileIn sHomePath sFile d = pathText (walk sHomePath sFile d) ∧ Normal (walk sHomePath sFile d) := by
  rw [walk, if_neg hadd, fileIn]
  have htrim : trimSuffix_n (rootText d.dir) (lit "/") = flat (ch '/') d.dir := by
    unfold rootText
    split
    · case isTrue h => rw [h]; decide
    · exact trimSuffix_slash _
  by_cases hhead : (addDir sHomePath sFile []).head? = some (ch '/')
  · rw [if_pos hhead]
    refine ⟨changeDir_walk sHomePath hadd normal_nil ?_, normal_resolve normal_nil _⟩
    rw [if_pos hhead]
    rfl
  · rw [if_neg hhead]
    refine ⟨changeDir_walk sHomePath hadd hd ?_, normal_resolve hd _⟩
    rw [if_neg hhead]
    exact htrim

theorem dirOf_pathText {dir : List CString} (h : Normal dir) : dirOf (pathText dir) = dir := by
  by_cases hdir : dir = []
  · rw [hdir]
    decide
  · have hpieces : pieces (ch '/') (flat (ch '/') dir) = ([], dir) := by
      rw [← nil_append (flat (ch '/') dir)]
      exact pieces_append not_mem_nil fun p hp => (h p hp).2
    have hstay : turn [] = .stay := by decide
    rw [pathText, if_neg hdir, dirOf, allPieces, hpieces, resolve_cons, enter, hstay]
    exact resolve_of_down (fun p hp => (h p hp).1) []

theorem inside_pathText {dir names : List CString} (h : Normal names) :
    Inside dir (pathText names) ↔ Below dir names := by
  constructor
  · rintro ⟨names', h', heq, hbelow⟩
    have hsame : names = names' := by rw [← dirOf_pathText h, heq, dirOf_pathText h']
    rwa [hsame]
  · intro hbelow
    exact ⟨names, h, rfl, hbelow⟩

/-- **The path is inside the search directory** exactly if the names to which the file name leads are. -/
theorem inside_fileIn {d : SearchDir} (hd : Normal d.dir) :
    Inside d.dir (fileIn sHomePath sFile d) ↔ Keeps sHomePath sFile d := by
  by_cases hadd : sFile = lit "~"
  · have hhome : fileIn sHomePath sFile d = sHomePath := by rw [fileIn, changeDir, if_pos hadd, homeDir, if_pos rfl]
    rw [hhome, Keeps, walk, if_pos hadd]
    constructor
    · rintro ⟨names, h, heq, hbelow⟩
      have hnames : dirOf sHomePath = names := by rw [heq, dirOf_pathText h]
      rw [hnames]
      exact ⟨hbelow, fun _ => heq⟩
    · rintro ⟨hbelow, heq⟩
      exact ⟨dirOf sHomePath, normal_dirOf sHomePath, heq hadd, hbelow⟩
  · obtain ⟨hfile, hnormal⟩ := changeDir_root sHomePath sFile hd hadd
    rw [hfile, inside_pathText hnormal, Keeps]
    exact (and_iff_left fun h => absurd h hadd).symm

theorem prefix_rootText {dir names : List CString} (hdir : Normal dir) (hnames : Normal names) (h : Below dir names) :
    rootText dir <+: pathText names := by
  obtain ⟨hpre, hroot⟩ := h
  by_cases hempty : dir = []
  · rw [hempty, rootText, if_pos rfl]
    cases names with
    | nil => exact prefix_rfl
    | cons p names => exact ⟨p ++ flat (ch '/') names, rfl⟩
  · have hlen : dir.length < names.length := by
      rcases Nat.lt_or_eq_of_le hpre.length_le with hlt | heq
      · exact hlt
      · exact absurd (hroot (hpre.eq_of_length heq).symm) hempty
    have hne : names ≠ [] := fun h => by rw [h] at hlen; exact Nat.not_lt_zero _ hlen
    rw [rootText, if_neg hempty, pathText, if_neg hne]
    exact (prefix_iff not_mem_nil not_mem_nil (fun p hp => (hdir p hp).2) fun p hp => (hnames p hp).2).2
      ⟨rfl, hpre, hlen⟩

theorem startsWith_of_prefix {s w : CString} (h : w <+: s) : s.startsWith w = true := by
  rw [startsWith, left, ← prefix_iff_eq_take.1 h, equals, decide_eq_true_eq]

theorem found_of_contains {d : SearchDir} (hd : Normal d.dir) (h : Contains sHomePath files bFromInc sFile d) :
    Found sHomePath files bFromInc sFile d := by
  obtain ⟨hexists, names, hnames, heq, hbelow⟩ := h
  refine ⟨hexists, ?_⟩
  rw [heq]
  exact startsWith_of_prefix (prefix_rootText hd hnames hbelow)

theorem rootText_kept {dir : List CString} : (if rootText dir ≠ [] ∧ endsWith (rootText dir) (lit "/") = false then
    rootText dir ++ lit "/" else rootText dir) = rootText dir := by
  have hends : endsWith (rootText dir) (lit "/") = true := by
    unfold rootText
    split
    · decide
    · rw [endsWith, right]
      simp [lit, equals]
  rw [if_neg (by simp [hends])]

/-- **The loop** stops at the first search directory whose path exists and starts with it. -/
theorem expandLoop_spec (dirs : List SearchDir) :
    (expandLoop sHomePath files bFromInc sFile (dirs.map fun d => (rootText d.dir, d.bIncludesOnly)) = [] ∧
        ∀ d ∈ dirs, ¬Found sHomePath files bFromInc sFile d) ∨
      ∃ d, First (Found sHomePath files bFromInc sFile) dirs d ∧
        expandLoop sHomePath files bFromInc sFile (dirs.map fun d => (rootText d.dir, d.bIncludesOnly)) =
          fileIn sHomePath sFile d := by
  induction dirs with
  | nil => exact .inl ⟨rfl, fun d hd => nomatch hd⟩
  | cons d dirs ih =>
    have hroot : rootText d.dir ≠ [] := by
      unfold rootText
      split <;> simp [lit]
    have hcases : expandLoop sHomePath files bFromInc sFile
        ((d :: dirs).map fun d => (rootText d.dir, d.bIncludesOnly)) =
          if d.bIncludesOnly && !bFromInc then
            expandLoop sHomePath files bFromInc sFile (dirs.map fun d => (rootText d.dir, d.bIncludesOnly))
          else if files (fileIn sHomePath sFile d) && (fileIn sHomePath sFile d).startsWith (rootText d.dir) then
            fileIn sHomePath sFile d
          else expandLoop sHomePath files bFromInc sFile (dirs.map fun d => (rootText d.dir, d.bIncludesOnly)) := by
      rw [map_cons, expandLoop, rootText_kept, decide_eq_false hroot, Bool.false_or]
      rfl
    by_cases hfound : Found sHomePath files bFromInc sFile d
    · right
      obtain ⟨⟨huse, hexists⟩, hstarts⟩ := hfound
      refine ⟨d, ⟨[], dirs, rfl, fun e he => absurd he List.not_mem_nil, ⟨huse, hexists⟩, hstarts⟩, ?_⟩
      rw [hcases, huse, hexists, hstarts]
      rfl
    · have hskip : expandLoop sHomePath files bFromInc sFile
          ((d :: dirs).map fun d => (rootText d.dir, d.bIncludesOnly)) =
            expandLoop sHomePath files bFromInc sFile (dirs.map fun d => (rootText d.dir, d.bIncludesOnly)) := by
        rw [hcases]
        by_cases huse : (d.bIncludesOnly && !bFromInc) = true
        · rw [if_pos huse]
        · rw [if_neg huse, if_neg]
          intro hboth
          rw [Bool.and_eq_true] at hboth
          exact hfound ⟨⟨Bool.not_eq_true _ ▸ huse, hboth.1⟩, hboth.2⟩
      rw [hskip]
      rcases ih with ⟨hnil, hnone⟩ | ⟨e, ⟨ys, zs, hsplit, hbefore, he⟩, heq⟩
      · exact .inl ⟨hnil, forall_mem_cons.2 ⟨hfound, hnone⟩⟩
      · refine .inr ⟨e, ⟨d :: ys, zs, by rw [hsplit]; rfl, forall_mem_cons.2 ⟨hfound, hbefore⟩, he⟩, heq⟩

end Search

theorem First.unique {α : Type} {P : α → Prop} {xs : List α} {x y : α} (hx : First P xs x)
    (hy : First P xs y) : x = y := by
  obtain ⟨as, bs, hsplit, has, hpx⟩ := hx
  obtain ⟨cs, ds, hsplit', hcs, hpy⟩ := hy
  rw [hsplit] at hsplit'
  rcases append_eq_append_iff.1 hsplit' with ⟨l, hl, hrest⟩ | ⟨l, hl, hrest⟩
  · cases l with
    | nil => exact (List.cons.inj hrest).1
    | cons z l =>
      rw [← (List.cons.inj hrest).1] at hl
      exact absurd hpx (hcs x (by simp [hl]))
  · cases l with
    | nil => exact (List.cons.inj hrest).1.symm
    | cons z l =>
      rw [← (List.cons.inj hrest).1] at hl
      exact absurd hpy (has y (by simp [hl]))

theorem Found.ne_nil {sHomePath sFile : CString} {files : CString → Bool} {bFromInc : Bool} {d : SearchDir}
    (h : Found sHomePath files bFromInc sFile d) : fileIn sHomePath sFile d ≠ [] := by
  intro hnil
  have hstarts := h.2
  rw [hnil] at hstarts
  have hcut : ∃ w, rootText d.dir = ch '/' :: w := by
    unfold rootText
    split
    · exact ⟨[], rfl⟩
    · case isFalse hdir =>
      obtain ⟨p, dir, hcons⟩ := exists_cons_of_ne_nil hdir
      rw [hcons]
      exact ⟨_, rfl⟩
  obtain ⟨w, hw⟩ := hcut
  rw [hw] at hstarts
  simp [startsWith, left, equals, cStr, ch, asLower] at hstarts
  exact absurd hstarts (by decide)

section File

variable {sHomePath : CString} {files : CString → Bool} {getValue : CString → CString} {ops : List PathOp}
  {sFilename : CString} {bFromInc : Bool}

theorem expandFile_spec :
    (expandFile sHomePath files getValue (lsbPaths sHomePath ops) sFilename bFromInc = [] ∧
        ∀ d ∈ searchDirs ops, ¬Found sHomePath files bFromInc (fileName getValue sFilename) d) ∨
      ∃ d, First (Found sHomePath files bFromInc (fileName getValue sFilename)) (searchDirs ops) d ∧
        expandFile sHomePath files getValue (lsbPaths sHomePath ops) sFilename bFromInc =
          fileIn sHomePath (fileName getValue sFilename) d := by
  rw [expandFile, lsbPaths_eq]
  exact expandLoop_spec sHomePath files bFromInc (fileName getValue sFilename) (searchDirs ops)

/-- **The search directory where the loop stops** is the first one that has the file, if it keeps it. -/
theorem first_contains {sFile : CString} {d : SearchDir} (hd : First (Found sHomePath files bFromInc sFile) (searchDirs ops) d)
    (hkeeps : Keeps sHomePath sFile d) : First (Contains sHomePath files bFromInc sFile) (searchDirs ops) d := by
  obtain ⟨ys, zs, hsplit, hbefore, hfound⟩ := hd
  have hnormal := normal_searchDirs ops
  refine ⟨ys, zs, hsplit, fun y hy hyc => hbefore y hy ?_, hfound.1, ?_⟩
  · exact found_of_contains sHomePath files bFromInc _ (hnormal y (by simp [hsplit, hy])) hyc
  · exact (inside_fileIn sHomePath _ (hnormal d (by simp [hsplit]))).2 hkeeps

end File

/-- **The file of a template.** It is nothing, or the path that the file has in the search directory where the loop stops, and this
is the first one that contains it, exactly if the names to which the file name leads from there are below that directory in
their letter case. -/
theorem expandFile_iff (sHomePath : CString) (files : CString → Bool) (getValue : CString → CString) (ops : List PathOp)
    (sFilename : CString) (bFromInc : Bool) :
    (expandFile sHomePath files getValue (lsbPaths sHomePath ops) sFilename bFromInc = [] ∨
        ∃ d, First (Found sHomePath files bFromInc (fileName getValue sFilename)) (searchDirs ops) d ∧
          First (Contains sHomePath files bFromInc (fileName getValue sFilename)) (searchDirs ops) d ∧
          expandFile sHomePath files getValue (lsbPaths sHomePath ops) sFilename bFromInc =
            fileIn sHomePath (fileName getValue sFilename) d) ↔
      ∀ d, First (Found sHomePath files bFromInc (fileName getValue sFilename)) (searchDirs ops) d →
        Keeps sHomePath (fileName getValue sFilename) d := by
  constructor
  · intro h d hd
    have ⟨ys, zs, hsplit, _, hfound⟩ := hd
    have hmem : d ∈ searchDirs ops := by simp [hsplit]
    rcases h with hnil | ⟨e, he, ⟨-, -, -, -, hcontains⟩, -⟩
    · rcases expandFile_spec with ⟨-, hnone⟩ | ⟨e, ⟨-, -, -, -, he⟩, heq⟩
      · exact absurd hfound (hnone d hmem)
      · exact absurd (heq.symm.trans hnil) he.ne_nil
    · rw [First.unique he hd] at hcontains
      exact (inside_fileIn sHomePath _ (normal_searchDirs ops d hmem)).1 hcontains.2
  · intro h
    rcases expandFile_spec with ⟨hnil, -⟩ | ⟨d, hd, heq⟩
    · exact .inl hnil
    · exact .inr ⟨d, hd, first_contains hd (h d hd), heq⟩

/-- a static file whose name leads to a directory beside the search directory that differs in letter case -/
theorem printStaticFile_beside :
    printStaticFile [] (fun sPath => sPath = lit "/srv/WWW/key") id [⟨lit "/srv/www", rfl⟩] (lit "/pub/../../WWW/key") =
        some (lit "/srv/WWW/key") ∧
      ¬(expandFile [] (fun sPath =>
        sPath = lit "/srv/WWW/key") id (lsbPaths [] [.appendPath ⟨lit "/srv/www", rfl⟩ false])
            (lit "pub/../../WWW/key") = [] ∨
          ∃ d, First (Contains [] (fun sPath =>
            sPath = lit "/srv/WWW/key") false (fileName id (lit "pub/../../WWW/key")))
              (searchDirs [.appendPath ⟨lit "/srv/www", rfl⟩ false]) d ∧
            expandFile [] (fun sPath => sPath = lit "/srv/WWW/key") id
              (lsbPaths [] [.appendPath ⟨lit "/srv/www", rfl⟩ false])
              (lit "pub/../../WWW/key") = fileIn [] (fileName id (lit "pub/../../WWW/key")) d) := by
  refine ⟨by decide, ?_⟩
  rintro (hnil | ⟨d, ⟨ys, zs, hsplit, -, hcontains⟩, -⟩)
  · exact absurd hnil (by decide)
  · have hd : d = ⟨[lit "srv", lit "www"], false⟩ := by
      have hmem : d ∈ searchDirs [.appendPath ⟨lit "/srv/www", rfl⟩ false] := by simp [hsplit]
      have hdirs : searchDirs [.appendPath ⟨lit "/srv/www", rfl⟩ false] = [⟨[lit "srv", lit "www"], false⟩] := by decide
      rw [hdirs] at hmem
      exact mem_singleton.1 hmem
    have hnormal := normal_searchDirs [.appendPath ⟨lit "/srv/www", rfl⟩ false] d (by simp [hsplit])
    have hkeeps := (inside_fileIn [] (fileName id (lit "pub/../../WWW/key")) hnormal).1 hcontains.2
    rw [hd] at hkeeps
    exact absurd hkeeps.1 (by decide)

/-! ## Plain names -/

theorem not_mem_dirOf {c : UInt8} {sPath : CString} (h : c ∉ sPath) : ∀ p ∈ dirOf sPath, c ∉ p := by
  intro p hp hc
  obtain ⟨htext, -, -⟩ := @pieces_spec _ (ch '/') _ sPath
  refine h (htext ▸ ?_)
  rcases mem_resolve hp with hp | hp
  · exact nomatch hp
  · rcases mem_cons.1 hp with rfl | hp
    · exact mem_append_left _ hc
    · exact mem_append_right _ (mem_flatMap.2 ⟨p, hp, mem_cons_of_mem _ hc⟩)

def PathOp.sPath : PathOp → CString
  | .appendPath sPath _ => sPath.sPath
  | .prependPath sPath _ => sPath.sPath

theorem mem_searchDirs {ops : List PathOp} {d : SearchDir} (hd : d ∈ searchDirs ops) :
    ∃ op ∈ ops, d.dir = dirOf op.sPath := by
  induction ops using List.reverseRecOn with
  | nil => exact nomatch hd
  | append_singleton ops op ih =>
    rw [searchDirs, foldl_append, ← searchDirs] at hd
    have hcases : d ∈ searchDirs ops ∨ d.dir = dirOf op.sPath := by
      cases op with
      | appendPath sPath bIncludesOnly =>
        rcases mem_append.1 hd with hd | hd
        · exact .inl hd
        · exact .inr (by rw [mem_singleton.1 hd]; rfl)
      | prependPath sPath bIncludesOnly =>
        rcases mem_cons.1 hd with hd | hd
        · exact .inr (by rw [hd]; rfl)
        · exact .inl hd
    rcases hcases with hd | hd
    · obtain ⟨op', hop', heq⟩ := ih hd
      exact ⟨op', mem_append_left _ hop', heq⟩
    · exact ⟨op, by simp, hd⟩

/-- **A plain name.** The loop stops at a directory that has the file, if the name has no `..` and does not begin with `~`. -/
theorem keeps_plain {sHomePath sFile : CString} {files : CString → Bool} {bFromInc : Bool} {d : SearchDir}
    (hd : Normal d.dir) (hnul : ∀ p ∈ d.dir, (0 : UInt8) ∉ p) (htilde : sFile.head? ≠ some (ch '~'))
    (hslash : sFile.head? ≠ some (ch '/')) (hup : ∀ p ∈ allPieces sFile, p ≠ lit "..")
    (hfound : Found sHomePath files bFromInc sFile d) : Keeps sHomePath sFile d := by
  have hadd : sFile ≠ lit "~" := fun h => htilde (by rw [h]; rfl)
  have haddDir : addDir sHomePath sFile [] = sFile := by
    rw [addDir, if_neg]
    intro hstarts
    rw [startsWith_iff (by decide)] at hstarts
    cases sFile with
    | nil => exact absurd hstarts (by decide)
    | cons c s =>
      have hc := (cons_prefix_cons.1 hstarts).1
      have hsame : c = ch '~' := (tolower_eq_iff (by decide)).1 hc.symm
      exact htilde (by rw [hsame]; rfl)
  have hwalk : walk sHomePath sFile d = resolve turn d.dir (allPieces sFile) := by
    rw [walk, if_neg hadd, haddDir, if_neg hslash]
  have hbelow : d.dir <+: walk sHomePath sFile d := by
    rw [hwalk]
    refine prefix_resolve (fun p hp hturn => ?_) d.dir
    unfold turn at hturn
    rw [if_neg (hup p hp)] at hturn
    split at hturn <;> exact nomatch hturn
  refine ⟨⟨hbelow, fun hsame => ?_⟩, fun h => absurd h hadd⟩
  -- the directory itself does not start with its text and a slash
  by_contra hne
  have hstarts := hfound.2
  have hzero : (0 : UInt8) ∉ rootText d.dir := by
    rw [rootText, if_neg hne, mem_append, not_or]
    refine ⟨fun h0 => ?_, by decide⟩
    obtain ⟨p, hp, h0⟩ := mem_flatMap.1 h0
    rcases mem_cons.1 h0 with h0 | h0
    · exact absurd h0 (by decide)
    · exact hnul p hp h0
  rw [(changeDir_root sHomePath sFile hd hadd).1, hsame, startsWith_iff hzero] at hstarts
  have hlen := hstarts.length_le
  rw [rootText, if_neg hne, pathText, if_neg hne] at hlen
  simp [asLower, lit] at hlen

/-- **Plain names** lead to the file in the first search directory that has it, or to none. -/
theorem expandFile_plain (sHomePath : CString) (files : CString → Bool) (getValue : CString → CString)
    (ops : List PathOp) (sFilename : CString) (bFromInc : Bool) (hnul : ∀ op ∈ ops, (0 : UInt8) ∉ op.sPath)
    (htilde : (fileName getValue sFilename).head? ≠ some (ch '~'))
    (hup : ∀ p ∈ allPieces (fileName getValue sFilename), p ≠ lit "..") :
    expandFile sHomePath files getValue (lsbPaths sHomePath ops) sFilename bFromInc = [] ∨
      ∃ d, First (Contains sHomePath files bFromInc (fileName getValue sFilename)) (searchDirs ops) d ∧
        expandFile sHomePath files getValue (lsbPaths sHomePath ops) sFilename bFromInc =
          fileIn sHomePath (fileName getValue sFilename) d := by
  rcases expandFile_spec with ⟨hnil, -⟩ | ⟨d, hd, heq⟩
  · exact .inl hnil
  · right
    have ⟨ys, zs, hsplit, _, hfound⟩ := hd
    have hmem : d ∈ searchDirs ops := by simp [hsplit]
    have hzero : ∀ p ∈ d.dir, (0 : UInt8) ∉ p := by
      obtain ⟨op, hop, hdir⟩ := mem_searchDirs hmem
      rw [hdir]
      exact not_mem_dirOf (hnul op hop)
    have hslash : (fileName getValue sFilename).head? ≠ some (ch '/') := by
      intro hhead
      have hnot := head?_dropWhile_not (fun c => decide (c ∈ lit "/")) (resolveLiteral getValue sFilename)
      rw [fileName, trimLeft] at hhead
      rw [hhead] at hnot
      exact absurd hnot (by decide)
    have hkeeps := keeps_plain (normal_searchDirs ops d hmem) hzero htilde hslash hup hfound
    exact ⟨d, first_contains hd hkeeps, heq⟩

/-- a name that the second of two directories has -/
theorem expandFile_plain_www :
    let files := fun sPath => decide (sPath = lit "/srv/www/a")
    let ops := [PathOp.appendPath ⟨lit "/srv/skin", rfl⟩ false, PathOp.appendPath ⟨lit "/srv/www", rfl⟩ false]
    expandFile [] files id (lsbPaths [] ops) (lit "a") false = lit "/srv/www/a" ∧
      (expandFile [] files id (lsbPaths [] ops) (lit "a") false = [] ∨
        ∃ d, First (Contains [] files false (fileName id (lit "a"))) (searchDirs ops) d ∧
          expandFile [] files id (lsbPaths [] ops) (lit "a") false = fileIn [] (fileName id (lit "a")) d) :=
  ⟨by decide, expandFile_plain [] _ id _ (lit "a") false (by decide) (by decide) (by decide)⟩

end ZNC.ExpandFile
