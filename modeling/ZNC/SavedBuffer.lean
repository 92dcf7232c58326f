/-
The module savebuff (`modules/savebuff.cpp`): a buffer is written to a file and read back.

The file begins with a token and the name of the target. Two lines follow for each line of the buffer: its time and format, and its
text. `DecryptBuffer` takes the name off by trimming its characters, and `BootStrap` reads the lines.

Results:
- `bootStrapLoop_eq`: the lines are cut into entries, and each entry is added to the buffer;
- `saved_buffer_iff`: a buffer comes back, whatever the time is, exactly if it is empty, or its file can be read, its name has no
  '@', and its formats and texts are not changed by trimming, printing and parsing.
-/
import ZNC.MessageReprint
import ZNC.ServerLine

namespace ZNC

open List Option

namespace SaveBuff

open CString Config CMessage Words NetworkClone

/-! ## Model -/

/-- `CString(long)` -/
def longText (i : ℤ) : CString := if i < 0 then ch '-' :: uintText i.natAbs else uintText i.natAbs

/-- `ToLongLong()`, and `ToLong()` where a long has 64 bits -/
def toLongLong (s : CString) : ℤ := max (-2 ^ 63) (min (2 ^ 63 - 1) (s.strtol 10).1)

/-- `CBlowfish` with the password of the module; both directions keep the length -/
structure CBlowfish where
  encrypt : CString → CString
  decrypt : CString → CString
  length_encrypt : ∀ s, (encrypt s).length = s.length
  decrypt_encrypt : ∀ s, decrypt (encrypt s) = s

def LEGACY_VERIFICATION_TOKEN : CString := lit "::__:SAVEBUFF:__::"

def CHAN_VERIFICATION_TOKEN : CString := lit "::__:CHANBUFF:__::"

def QUERY_VERIFICATION_TOKEN : CString := lit "::__:QUERYBUFF:__::"

inductive EBufferType where
  | InvalidBuffer
  | EmptyBuffer
  | ChanBuffer
  | QueryBuffer
deriving DecidableEq

/-- the two lines for a line of the buffer -/
def bufLineText (Line : CBufLine) : Option CString :=
  (Line.message.toString ExcludeTags).map fun sFormat =>
    ch '@' :: longText Line.message.time.tv_sec ++ ch ',' :: longText Line.message.time.tv_usec ++ ch ' ' :: sFormat ++
      ch '\n' :: Line.sText ++ [ch '\n']

/-- what is written, before it is encrypted -/
def contentOf (Buffer : CBuffer) (sHeader : CString) : Option CString :=
  (Buffer.lines.mapM bufLineText).map fun texts => sHeader ++ ch '\n' :: texts.flatten

def saveBufferToDisk (c : CBlowfish) (Buffer : CBuffer) (sHeader : CString) : Option CString :=
  (contentOf Buffer sHeader).map c.encrypt

/-- `CFile::ReadFile`: the limit may not be reached -/
def readFile (sData : CString) : Option CString := if sData.length < 512 * 1024 then some sData else none

def firstLine (s : CString) : CString := s.token 0 false (ch '\n') false

/-- what `TrimLeft(cs)` returns: the string is empty or begins with one of them -/
def trims (s cs : CString) : Bool := s.head?.all (· ∈ cs)

/-- the rest of `DecryptBuffer` behind a token -/
def namedBuffer (eType : EBufferType) (sBuffer : CString) : EBufferType × CString × CString :=
  let sName := firstLine sBuffer
  if trims sBuffer (sName ++ lit "\n") then (eType, sBuffer.trimLeft (sName ++ lit "\n"), sName)
  else (.InvalidBuffer, sBuffer, sName)

/-- `DecryptBuffer`: the type, the buffer and its name; `sLegacyName` is what `FindLegacyBufferName` finds -/
def decryptBuffer (c : CBlowfish) (sLegacyName sFile : CString) : EBufferType × CString × CString :=
  match readFile sFile with
  | none => (.EmptyBuffer, [], [])
  | some sContent =>
    if sContent = [] then (.EmptyBuffer, [], [])
    else
      let sBuffer := c.decrypt sContent
      if sBuffer.startsWith LEGACY_VERIFICATION_TOKEN then
        (.ChanBuffer, sBuffer.drop LEGACY_VERIFICATION_TOKEN.length, sLegacyName)
      else if sBuffer.startsWith CHAN_VERIFICATION_TOKEN then
        namedBuffer .ChanBuffer (sBuffer.drop CHAN_VERIFICATION_TOKEN.length)
      else if sBuffer.startsWith QUERY_VERIFICATION_TOKEN then
        namedBuffer .QueryBuffer (sBuffer.drop QUERY_VERIFICATION_TOKEN.length)
      else (.InvalidBuffer, sBuffer, [])

/-- the time of a line that begins with '@' -/
def lineTime (sLine : CString) : timeval :=
  let sTimestamp := (sLine.token 0 false (ch ' ') false).trimLeft (lit "@")
  ⟨toLongLong (sTimestamp.token 0 false (ch ',') false), toLongLong (sTimestamp.token 1 false (ch ',') false)⟩

/-- "Old format, escape the line and use as is." -/
def addPlain (utils : CUtils) (b : CBuffer) (sLine : CString) : Option CBuffer :=
  (sLine.escape_n .EASCII .ENAMEDFMT).bind fun sFormat => b.addText utils sFormat [] none .empty

def bootStrapLoop (utils : CUtils) : VCString → CBuffer → Option CBuffer
  | [], b => some b
  | [it], b => addPlain utils b (trim it)
  | it :: next :: rest, b =>
    if (trim it).head? = some (ch '@') then
      (b.addText utils ((trim it).token 1 true (ch ' ') false) (trim next) (some (lineTime (trim it))) .empty).bind
        (bootStrapLoop utils rest)
    else (addPlain utils b (trim it)).bind (bootStrapLoop utils (next :: rest))

def bootStrap (utils : CUtils) (b : CBuffer) (sContent : CString) : Option CBuffer :=
  -- in this case the module was probably reloaded
  if b.lines ≠ [] then some b else bootStrapLoop utils (sContent.split (ch '\n') true) b

/-- one file in `OnBoot`, for the buffer of one target -/
def onBoot (utils : CUtils) (c : CBlowfish) (eType : EBufferType) (sTarget : CString) (b : CBuffer) (sFile : CString) :
    Option CBuffer :=
  let r := decryptBuffer c [] sFile
  if r.1 = eType && r.2.2.equals sTarget then bootStrap utils b r.2.1 else some b

/-! ## Statement -/

/-- the token that `SaveBuffersToDisk` writes in front of the name -/
def tokenOf : EBufferType → CString
  | .ChanBuffer => CHAN_VERIFICATION_TOKEN
  | .QueryBuffer => QUERY_VERIFICATION_TOKEN
  | _ => []

/-- what is kept of a line -/
def view (Line : CBufLine) : Option CString × CString × timeval :=
  (Line.message.toString ExcludeTags, Line.sText, Line.message.time)

/-- the text of a message that was parsed from a text -/
def reprint (sFormat : CString) : Option CString :=
  ((blank stoppedClock).parse sFormat).bind fun m => m.toString ExcludeTags

def IsLong (i : ℤ) : Prop := -2 ^ 63 ≤ i ∧ i < 2 ^ 63

/-- a buffer that can be written: no format or text holds a newline, and the times are those of a `timeval` -/
structure Writable (Buffer : CBuffer) : Prop where
  formats : ∀ l ∈ Buffer.lines, ∀ sFormat ∈ l.message.toString ExcludeTags, ch '\n' ∉ sFormat
  texts : ∀ l ∈ Buffer.lines, ch '\n' ∉ l.sText
  times : ∀ l ∈ Buffer.lines, IsLong l.message.time.tv_sec ∧ IsLong l.message.time.tv_usec
  size : Buffer.lines.length ≤ Buffer.uLineCount.toNat

/-- the name of a channel or a query -/
structure TargetName (sName : CString) : Prop where
  ne : sName ≠ []
  noNewline : ch '\n' ∉ sName
  noNul : 0 ∉ sName

/-- the file can be read -/
def Fits (Buffer : CBuffer) (sHeader : CString) : Prop := ∃ s, contentOf Buffer sHeader = some s ∧ s.length < 512 * 1024

/-- a buffer that is written, and read into the empty buffer of its target, has its lines again -/
def Restored (utils : CUtils) (c : CBlowfish) (eType : EBufferType) (sName : CString) (Buffer : CBuffer) : Prop :=
  ∃ b, (saveBufferToDisk c Buffer (tokenOf eType ++ sName)).bind
      (onBoot utils c eType sName { Buffer with lines := [] }) = some b ∧
    b.lines.map view = Buffer.lines.map view

/-- a line that trimming, parsing and printing leave alone -/
structure Stable (Line : CBufLine) : Prop where
  format : ∃ sFormat, Line.message.toString ExcludeTags = some sFormat ∧ sFormat.head? ≠ some (ch ' ') ∧
    sFormat.trimRight_n blanks = sFormat ∧ 0 ∉ sFormat ∧ reprint sFormat = some sFormat
  text : trim Line.sText = Line.sText
  noNul : 0 ∉ Line.sText

/-! ## Entries -/

/-- what the loop reads -/
inductive Entry where
  | Timed (ts : timeval) (sFormat sText : CString)
  | Plain (sLine : CString)

def entries : VCString → List Entry
  | [] => []
  | [it] => [.Plain (trim it)]
  | it :: next :: rest =>
    if (trim it).head? = some (ch '@') then
      .Timed (lineTime (trim it)) ((trim it).token 1 true (ch ' ') false) (trim next) :: entries rest
    else .Plain (trim it) :: entries (next :: rest)

/-- the line that is added for an entry -/
def Entry.line (utils : CUtils) : Entry → Option CBufLine
  | .Timed ts sFormat sText => (ofLine utils sFormat).map fun m => ⟨{ m with time := ts, mssTags := .empty }, sText⟩
  | .Plain sLine =>
    ((sLine.escape_n .EASCII .ENAMEDFMT).bind (ofLine utils)).map fun m => ⟨{ m with mssTags := .empty }, []⟩

theorem bootStrapLoop_eq (utils : CUtils) (vs : VCString) (b : CBuffer) :
    bootStrapLoop utils vs b =
      (entries vs).foldlM (fun b e => (e.line utils).map fun l => b.addLine l.message l.sText) b := by
  have hplain : ∀ (b : CBuffer) (sLine : CString), addPlain utils b sLine =
      ((Entry.Plain sLine).line utils).map fun l => b.addLine l.message l.sText := by
    intro b sLine
    rw [addPlain, Entry.line]
    cases sLine.escape_n .EASCII .ENAMEDFMT with
    | none => rfl
    | some s => simp [CBuffer.addText, Option.map_map, Function.comp_def]
  fun_induction entries vs generalizing b with
  | case1 => rfl
  | case2 it =>
    rw [bootStrapLoop, hplain, foldlM_cons]
    simp [foldlM_nil]
  | case3 it next rest h ih =>
    rw [bootStrapLoop, if_pos h, foldlM_cons, CBuffer.addText, Entry.line, Option.map_map]
    simp only [bind_eq_bind, bind_map, Function.comp_def, ih]
  | case4 it next rest h ih =>
    rw [bootStrapLoop, if_neg h, foldlM_cons, hplain]
    simp only [ih]
    rfl

def lastN {α : Type} (n : ℕ) (l : List α) : List α := l.drop (l.length - n)

theorem lastN_of_le {α : Type} {n : ℕ} {l : List α} (h : l.length ≤ n) : lastN n l = l := by
  rw [lastN, Nat.sub_eq_zero_of_le h, drop_zero]

theorem lastN_lastN_append {α : Type} (n : ℕ) (x y : List α) : lastN n (lastN n x ++ y) = lastN n (x ++ y) := by
  rcases Nat.le_total x.length n with h | h
  · rw [lastN_of_le h]
  · have hdrop : lastN n x ++ y = (x ++ y).drop (x.length - n) := by
      rw [lastN, drop_append_of_le_length (Nat.sub_le _ _)]
    rw [hdrop, lastN, lastN, drop_drop, length_drop]
    congr 1
    rw [length_append]
    omega

theorem addLine_lines {b : CBuffer} (h : b.uLineCount ≠ 0) (format : CMessage) (sText : CString) :
    b.addLine format sText = { b with lines := lastN b.uLineCount.toNat (b.lines ++ [⟨format, sText⟩]) } := by
  have hpos : 0 < b.uLineCount.toNat := Nat.pos_of_ne_zero fun h0 => h (UInt32.toNat_inj.1 h0)
  rw [CBuffer.addLine, if_neg h, lastN, length_append, length_singleton, drop_append_of_le_length (by omega)]

/-- **The buffer after `BootStrap`** holds the last lines that are read. -/
theorem foldlM_lines (utils : CUtils) (es : List Entry) {b : CBuffer} (h : b.uLineCount ≠ 0)
    (hsize : b.lines.length ≤ b.uLineCount.toNat) :
    es.foldlM (fun b e => (e.line utils).map fun l => b.addLine l.message l.sText) b =
      (es.mapM (Entry.line utils)).map fun ls => { b with lines := lastN b.uLineCount.toNat (b.lines ++ ls) } := by
  induction es generalizing b with
  | nil => simp [lastN_of_le hsize]
  | cons e es ih =>
    rw [foldlM_cons, mapM_cons]
    cases he : e.line utils with
    | none => rfl
    | some l =>
      have hnext := @ih (b.addLine l.message l.sText) (by rw [addLine_lines h]; exact h) (by
        rw [addLine_lines h, lastN]
        simp only [length_drop]
        omega)
      simp only [map_some, bind_eq_bind, bind_some, hnext]
      cases es.mapM (Entry.line utils) with
      | none => rfl
      | some ls => simp [addLine_lines h, lastN_lastN_append]

/-! ## Numbers and times -/

/-- **A number that is printed is read back.** -/
theorem toLongLong_longText {i : ℤ} (h : IsLong i) : toLongLong (longText i) = i := by
  have hne : digits (uintText i.natAbs) ≠ [] := (digits_uintText i.natAbs).trans_ne (uintText_ne i.natAbs)
  have hstrtol : (strtol (longText i) 10).1 = i := by
    by_cases hi : i < 0
    · have hspace : (ch '-' :: uintText i.natAbs).dropWhile isspace = ch '-' :: uintText i.natAbs :=
        dropWhile_cons_of_neg (by decide)
      have hunsigned : unsigned (ch '-' :: uintText i.natAbs) = uintText i.natAbs := by
        rw [unsigned, hspace]
        rfl
      rw [longText, if_pos hi, strtol_ten, hunsigned, if_neg hne, hspace, digits_uintText, decimal_uintText]
      simp [abs_of_neg hi]
    · obtain ⟨hunsigned, hsign⟩ := unsigned_of_digits hne
      rw [longText, if_neg hi, strtol_ten, hunsigned, if_neg hne, if_neg hsign, digits_uintText, decimal_uintText]
      exact Int.natAbs_of_nonneg (Int.not_lt.1 hi)
  rw [toLongLong, hstrtol]
  obtain ⟨hlow, hhigh⟩ := h
  omega

theorem longText_spec (i : ℤ) : longText i ≠ [] ∧ ∀ c ∈ longText i, isdigit c = true ∨ c = ch '-' := by
  unfold longText
  split_ifs
  · refine ⟨cons_ne_nil _ _, fun c hc => ?_⟩
    rcases mem_cons.1 hc with rfl | hc
    · exact .inr rfl
    · exact .inl (isdigit_uintText hc)
  · exact ⟨uintText_ne _, fun c hc => .inl (isdigit_uintText hc)⟩

/-- '@', the seconds, a comma and the microseconds -/
def stamp (ts : timeval) : CString := ch '@' :: longText ts.tv_sec ++ ch ',' :: longText ts.tv_usec

variable {vs : VCString} {utils : CUtils} {sFormat : CString} {l : CBufLine} {ts : timeval} {sName sText : CString}
  {Buffer : CBuffer} {sLine : CString}

theorem mem_stamp {c : UInt8} (h : c ∈ stamp ts) :
    isdigit c = true ∨ c = ch '-' ∨ c = ch '@' ∨ c = ch ',' := by
  unfold stamp at h
  rcases mem_append.1 h with h | h
  · rcases mem_cons.1 h with rfl | h
    · simp
    · rcases (longText_spec _).2 c h with h | h <;> simp [h]
  · rcases mem_cons.1 h with rfl | h
    · simp
    · rcases (longText_spec _).2 c h with h | h <;> simp [h]

theorem stamp_clean (ts : timeval) : ∀ c ∈ stamp ts, c ∉ blanks ∧ c ≠ 0 := by
  have hbyte : ∀ c : UInt8, isdigit c = true ∨ c = ch '-' ∨ c = ch '@' ∨ c = ch ',' → c ∉ blanks ∧ c ≠ 0 := by
    decide +kernel
  exact fun c hc => hbyte c (mem_stamp hc)

/-- **The time of a line is read back.** -/
theorem lineTime_stamp (hsec : IsLong ts.tv_sec) (husec : IsLong ts.tv_usec)
    (h : sLine.token 0 false (ch ' ') false = stamp ts) : lineTime sLine = ts := by
  have hbyte : ∀ c : UInt8, isdigit c = true ∨ c = ch '-' → c ≠ ch '@' ∧ c ≠ ch ',' := by decide +kernel
  have hcomma : ∀ i, ch ',' ∉ longText i := fun i hm => (hbyte _ ((longText_spec i).2 _ hm)).2 rfl
  have htrim : (stamp ts).trimLeft (lit "@") = longText ts.tv_sec ++ ch ',' :: longText ts.tv_usec := by
    obtain ⟨d, l, hdl⟩ := exists_cons_of_ne_nil (longText_spec ts.tv_sec).1
    have hd := (hbyte d ((longText_spec ts.tv_sec).2 d (hdl ▸ mem_cons_self ..))).1
    have hstamp : stamp ts = [ch '@'] ++ (longText ts.tv_sec ++ ch ',' :: longText ts.tv_usec) := rfl
    rw [hstamp]
    refine trimLeft_append (fun c hc => ?_) fun c hc => ?_
    · rw [mem_singleton.1 hc]
      exact mem_singleton_self _
    · rw [hdl, cons_append, head?_cons, mem_some_iff] at hc
      rw [← hc]
      exact fun hm => hd (mem_singleton.1 hm)
  have hrest : (longText ts.tv_sec ++ ch ',' :: longText ts.tv_usec).token 1 false (ch ',') false =
    longText ts.tv_usec := by
    rw [token_eq_fields, fields_append (hcomma _), fields_of_not_mem (hcomma _), if_neg (longText_spec _).1,
      if_neg (longText_spec _).1]
    rfl
  unfold lineTime
  rw [h]
  dsimp only
  rw [htrim, token_zero_append (longText_spec _).1 (hcomma _), hrest, toLongLong_longText hsec,
    toLongLong_longText husec]

/-! ## The lines of the file -/

/-- lines that are each ended by a newline -/
def unlines (vs : VCString) : CString := vs.flatMap (· ++ [ch '\n'])

theorem unlines_cons (v : CString) (vs : VCString) : unlines (v :: vs) = v ++ ch '\n' :: unlines vs := by
  simp [unlines]

/-- **Lines that are put together are split again.** -/
theorem split_unlines (h : ∀ v ∈ vs, ch '\n' ∉ v ∧ 0 ∉ v) : (unlines vs).split (ch '\n') true = vs := by
  have hnul : (0 : UInt8) ∉ unlines vs := by
    unfold unlines
    rw [mem_flatMap]
    rintro ⟨v, hv, hm⟩
    rcases mem_append.1 hm with hm | hm
    · exact (h v hv).2 hm
    · exact absurd (mem_singleton.1 hm) (by decide)
  rw [CString.split, cStr_eq_self hnul]
  clear hnul
  induction vs with
  | nil => rfl
  | cons v vs ih =>
    rw [unlines_cons, splitLoop_append (h v (mem_cons_self ..)).1, nil_append, splitLoop, if_pos rfl, Bool.true_or,
      if_pos rfl, ih fun w hw => h w (mem_cons_of_mem _ hw)]

/-- **Trimming lines by a set with the newline:** nothing is left, or a line is left from a byte on that is not in the set. -/
theorem trimLeft_unlines {cs : CString} (hcs : ch '\n' ∈ cs) (vs : VCString) :
    (unlines vs).trimLeft cs = [] ∨ ∃ old l w new, vs = old ++ l :: new ∧ w <:+ l ∧ w ≠ [] ∧ (∀ c ∈ w.head?, c ∉ cs) ∧
      (unlines vs).trimLeft cs = unlines (w :: new) := by
  induction vs with
  | nil => exact .inl rfl
  | cons v vs ih =>
    rw [unlines_cons]
    rcases eq_or_ne (v.trimLeft cs) [] with hv | hv
    · have hall : ∀ c ∈ v, decide (c ∈ cs) = true := dropWhile_eq_nil_iff.1 hv
      have hrest : (v ++ ch '\n' :: unlines vs).trimLeft cs = (unlines vs).trimLeft cs := by
        rw [CString.trimLeft, dropWhile_append_of_pos hall, dropWhile_cons_of_pos (by simpa using hcs)]
        rfl
      rw [hrest]
      rcases ih with ih | ⟨old, l, w, new, rfl, hw, hne, hhead, heq⟩
      · exact .inl ih
      · exact .inr ⟨v :: old, l, w, new, rfl, hw, hne, hhead, heq⟩
    · refine .inr ⟨[], v, v.trimLeft cs, vs, rfl, dropWhile_suffix _, hv, fun c hc hm => ?_, ?_⟩
      · have hnot := head?_dropWhile_not (fun c => decide (c ∈ cs)) v
        unfold CString.trimLeft at hc
        rw [mem_def] at hc
        rw [hc] at hnot
        simp [hm] at hnot
      · rw [unlines_cons, CString.trimLeft, CString.trimLeft, dropWhile_append]
        rw [CString.trimLeft] at hv
        rw [if_neg (by simpa using hv)]

def formatOf (Line : CBufLine) : CString := (Line.message.toString ExcludeTags).getD []

def headerLine (Line : CBufLine) : CString := stamp Line.message.time ++ ch ' ' :: formatOf Line

def fileLines (ls : List CBufLine) : VCString := ls.flatMap fun l => [headerLine l, l.sText]

variable (ls : List CBufLine) (s : CString)

theorem length_fileLines : (fileLines ls).length = 2 * ls.length := by
  simp [fileLines, Nat.mul_comm]

theorem fileLines_cons (l : CBufLine) (ls : List CBufLine) :
    fileLines (l :: ls) = headerLine l :: l.sText :: fileLines ls := rfl

theorem mapM_bufLineText {ls : List CBufLine} (h : ∀ l ∈ ls, (l.message.toString ExcludeTags).isSome) :
    ls.mapM bufLineText = some (ls.map fun l => headerLine l ++ ch '\n' :: l.sText ++ [ch '\n']) := by
  induction ls with
  | nil => rfl
  | cons l ls ih =>
    obtain ⟨sFormat, hl⟩ := isSome_iff_exists.1 (h l (mem_cons_self ..))
    rw [mapM_cons, ih fun l' hl' => h l' (mem_cons_of_mem _ hl')]
    simp [bufLineText, headerLine, formatOf, stamp, hl]

theorem isSome_of_mapM_bufLineText {ls : List CBufLine} (h : (ls.mapM bufLineText).isSome) :
    ∀ l ∈ ls, (l.message.toString ExcludeTags).isSome := by
  induction ls with
  | nil => exact fun l hl => absurd hl (by simp)
  | cons l ls ih =>
    rw [mapM_cons] at h
    cases hl : bufLineText l with
    | none => simp [hl] at h
    | some text =>
      cases hls : ls.mapM bufLineText with
      | none => simp [hl, hls] at h
      | some texts =>
        intro l' hl'
        rcases mem_cons.1 hl' with rfl | hl'
        · obtain ⟨sFormat, hformat, -⟩ := map_eq_some_iff.1 hl
          rw [hformat]
          rfl
        · exact ih (by rw [hls]; rfl) l' hl'

/-- **What is written.** -/
theorem contentOf_eq (h : ∀ l ∈ Buffer.lines, (l.message.toString ExcludeTags).isSome) (sHeader : CString) :
    contentOf Buffer sHeader = some (sHeader ++ ch '\n' :: unlines (fileLines Buffer.lines)) := by
  have hflat : ∀ ls : List CBufLine, (ls.map fun l => headerLine l ++ ch '\n' :: l.sText ++ [ch '\n']).flatten =
      unlines (fileLines ls) := by
    intro ls
    induction ls with
    | nil => rfl
    | cons l ls ih =>
      rw [map_cons, flatten_cons, ih, fileLines_cons, unlines_cons, unlines_cons]
      simp
  rw [contentOf, mapM_bufLineText h, map_some, hflat]

/-! ## The file -/

theorem startsWith_tokenOf {eType : EBufferType} (h : eType = .ChanBuffer ∨ eType = .QueryBuffer) (s : CString) :
    (tokenOf eType ++ s).startsWith LEGACY_VERIFICATION_TOKEN = false ∧
      (eType = .QueryBuffer → (tokenOf eType ++ s).startsWith CHAN_VERIFICATION_TOKEN = false) ∧
      (tokenOf eType ++ s).startsWith (tokenOf eType) = true := by
  have hself : (tokenOf eType ++ s).startsWith (tokenOf eType) = true := by
    rw [startsWith, left, take_left]
    simp [CString.equals]
  refine ⟨?_, fun hq => ?_, hself⟩
  · rcases h with rfl | rfl
    · have htake : (tokenOf .ChanBuffer ++ s).left LEGACY_VERIFICATION_TOKEN.length = CHAN_VERIFICATION_TOKEN := rfl
      rw [startsWith, htake]
      decide
    · have htake : (tokenOf .QueryBuffer ++ s).left LEGACY_VERIFICATION_TOKEN.length = lit "::__:QUERYBUFF:__:" := rfl
      rw [startsWith, htake]
      decide
  · rw [hq]
    have htake : (tokenOf .QueryBuffer ++ s).left CHAN_VERIFICATION_TOKEN.length = lit "::__:QUERYBUFF:__:" := rfl
    rw [startsWith, htake]
    decide

theorem namedBuffer_saved (hname : TargetName sName) (eType : EBufferType) (s : CString) :
    namedBuffer eType (sName ++ ch '\n' :: s) = (eType, s.trimLeft (sName ++ lit "\n"), sName) := by
  have hfirst : firstLine (sName ++ ch '\n' :: s) = sName := token_zero_append hname.ne hname.noNewline s
  have htrims : trims (sName ++ ch '\n' :: s) (sName ++ lit "\n") = true := by
    obtain ⟨c, l, hcl⟩ := exists_cons_of_ne_nil hname.ne
    simp [trims, hcl]
  have htrim : (sName ++ ch '\n' :: s).trimLeft (sName ++ lit "\n") = s.trimLeft (sName ++ lit "\n") := by
    rw [CString.trimLeft, dropWhile_append_of_pos (fun c hc => by simp [hc]),
      dropWhile_cons_of_pos (by simp [lit, ch])]
    rfl
  rw [namedBuffer, hfirst, htrims, if_pos rfl, htrim]

/-- **What is read of a file** that was written. -/
theorem decryptBuffer_saved (c : CBlowfish) {eType : EBufferType} (h : eType = .ChanBuffer ∨ eType = .QueryBuffer)
    (hname : TargetName sName) (s : CString) :
    decryptBuffer c [] (c.encrypt (tokenOf eType ++ sName ++ ch '\n' :: s)) =
      if (tokenOf eType ++ sName ++ ch '\n' :: s).length < 512 * 1024 then
        (eType, s.trimLeft (sName ++ lit "\n"), sName)
      else (.EmptyBuffer, [], []) := by
  set sContent := tokenOf eType ++ sName ++ ch '\n' :: s with hcontent
  have hassoc : sContent = tokenOf eType ++ (sName ++ ch '\n' :: s) := by rw [hcontent, append_assoc]
  rw [decryptBuffer, readFile, c.length_encrypt]
  split_ifs with hsize
  · have hne : c.encrypt sContent ≠ [] := by
      intro h0
      have hlen := c.length_encrypt sContent
      rw [h0, hcontent] at hlen
      simp at hlen
    obtain ⟨hlegacy, hchan, hself⟩ := startsWith_tokenOf h (sName ++ ch '\n' :: s)
    dsimp only
    rw [if_neg hne, c.decrypt_encrypt, hassoc, hlegacy, if_neg Bool.false_ne_true]
    rcases h with rfl | rfl
    · have hchan' : CHAN_VERIFICATION_TOKEN = tokenOf .ChanBuffer := rfl
      rw [hchan', hself, if_pos rfl, drop_left]
      exact namedBuffer_saved hname _ s
    · have hquery : QUERY_VERIFICATION_TOKEN = tokenOf .QueryBuffer := rfl
      rw [hchan rfl, if_neg Bool.false_ne_true, hquery, hself, if_pos rfl, drop_left]
      exact namedBuffer_saved hname _ s
  · rfl

/-! ## Reading a header line -/

theorem trimRight_spec : ∃ b, s = s.trimRight_n blanks ++ b ∧ (∀ c ∈ b, c ∈ blanks) ∧
    ∀ c ∈ (s.trimRight_n blanks).getLast?, c ∉ blanks := by
  refine ⟨(s.reverse.takeWhile (fun c => c ∈ blanks)).reverse, ?_, fun c hc => ?_, fun c hc hm => ?_⟩
  · rw [trimRight_n, ← reverse_append, takeWhile_append_dropWhile, reverse_reverse]
  · simpa using mem_takeWhile_imp (mem_reverse.1 hc)
  · rw [trimRight_n, getLast?_reverse, mem_def] at hc
    have hnot := head?_dropWhile_not (fun c => decide (c ∈ blanks)) s.reverse
    rw [hc] at hnot
    simp [hm] at hnot

def formatRead (sFormat : CString) : CString := (sFormat.trimRight_n blanks).dropWhile (· = ch ' ')

theorem stamp_ne (ts : timeval) : stamp ts ≠ [] := cons_ne_nil _ _

theorem trim_header (ts : timeval) (sFormat : CString) :
    trim (stamp ts ++ ch ' ' :: sFormat) =
      if sFormat.trimRight_n blanks = [] then stamp ts else stamp ts ++ ch ' ' :: sFormat.trimRight_n blanks := by
  obtain ⟨b, hb, hblank, hlast⟩ := trimRight_spec sFormat
  have hfirst : ∀ t : CString, ∀ c ∈ (stamp ts ++ t).head?, c ∉ blanks := by
    intro t c hc
    rw [head?_append_of_ne_nil _ (stamp_ne ts)] at hc
    exact (stamp_clean ts c (mem_of_mem_head? hc)).1
  split_ifs with hnil
  · rw [hnil, nil_append] at hb
    refine trim_append (stamp_ne ts) (by simpa using hfirst []) (fun c hc => ?_) fun c hc => ?_
    · exact (stamp_clean ts c (mem_of_mem_getLast? hc)).1
    · rcases mem_cons.1 hc with rfl | hc
      · decide
      · exact hblank c (hb ▸ hc)
  · have hsplit : stamp ts ++ ch ' ' :: sFormat = (stamp ts ++ ch ' ' :: sFormat.trimRight_n blanks) ++ b := by
      rw [append_assoc, cons_append, ← hb]
    rw [hsplit]
    refine trim_append (by simp) (hfirst _) (fun c hc => hlast c ?_) hblank
    rw [getLast?_append, getLast?_cons] at hc
    obtain ⟨d, hd⟩ := ne_none_iff_exists'.1 (fun h0 => hnil (getLast?_eq_none_iff.1 h0))
    rw [hd] at hc ⊢
    simpa using hc

/-- **A header line is read:** it begins with '@', and its time and its format are found. -/
theorem header_read (ts : timeval) (sFormat : CString) :
    (trim (stamp ts ++ ch ' ' :: sFormat)).head? = some (ch '@') ∧
      (trim (stamp ts ++ ch ' ' :: sFormat)).token 0 false (ch ' ') false = stamp ts ∧
      (trim (stamp ts ++ ch ' ' :: sFormat)).token 1 true (ch ' ') false = formatRead sFormat := by
  have hspace : ch ' ' ∉ stamp ts := fun hm => (stamp_clean ts _ hm).1 (by decide)
  rw [trim_header]
  split_ifs with hnil
  · rw [token_zero_of_not_mem hspace, token_rest_of_not_mem hspace, formatRead, hnil]
    exact ⟨rfl, rfl, rfl⟩
  · rw [token_zero_append (stamp_ne ts) hspace, token_rest (stamp_ne ts) hspace]
    exact ⟨rfl, rfl, rfl⟩

theorem formatRead_sublist (sFormat : CString) : (formatRead sFormat).Sublist sFormat := by
  obtain ⟨b, hb, -, -⟩ := trimRight_spec sFormat
  have hpre : (sFormat.trimRight_n blanks).Sublist sFormat := by
    conv_rhs => rw [hb]
    exact sublist_append_left _ _
  exact (dropWhile_sublist _).trans hpre

theorem formatRead_eq_iff (sFormat : CString) :
    formatRead sFormat = sFormat ↔ sFormat.head? ≠ some (ch ' ') ∧ sFormat.trimRight_n blanks = sFormat := by
  obtain ⟨b, hb, -, -⟩ := trimRight_spec sFormat
  have hpre : (sFormat.trimRight_n blanks).Sublist sFormat := by
    conv_rhs => rw [hb]
    exact sublist_append_left _ _
  constructor
  · intro h
    have hdrop : (formatRead sFormat).length ≤ (sFormat.trimRight_n blanks).length :=
      (dropWhile_sublist _).length_le
    have htrim : sFormat.trimRight_n blanks = sFormat := hpre.eq_of_length_le (by rw [h] at hdrop; exact hdrop)
    refine ⟨fun hhead => ?_, htrim⟩
    have hnot := head?_dropWhile_not (· = ch ' ') (sFormat.trimRight_n blanks)
    have hself : (sFormat.trimRight_n blanks).dropWhile (· = ch ' ') = sFormat := h
    rw [hself, hhead] at hnot
    simp at hnot
  · rintro ⟨hhead, htrim⟩
    rw [formatRead, htrim]
    cases sFormat with
    | nil => rfl
    | cons c l => exact dropWhile_cons_of_neg (by simpa using hhead)

/-! ## The lines that are added -/

theorem reprint_ofLine (utils : CUtils) {m : CMessage} (h : ofLine utils sFormat = some m) :
    m.toString ExcludeTags = reprint sFormat := by
  obtain ⟨m', hparse, rfl⟩ := map_eq_some_iff.1 h
  rw [parse_eq] at hparse
  obtain ⟨tags, htags, rfl⟩ := map_eq_some_iff.1 hparse
  rw [reprint, parse_eq, htags, map_some, bind_some]
  exact toString_congr rfl rfl rfl rfl

theorem ofLine_isSome (h : reprint sFormat = some sText) (utils : CUtils) :
    ∃ m, ofLine utils sFormat = some m := by
  obtain ⟨m, hparse, -⟩ := bind_eq_some_iff.1 h
  rw [parse_eq] at hparse
  obtain ⟨tags, htags, -⟩ := map_eq_some_iff.1 hparse
  rw [← isSome_iff_exists, ofLine, parse_eq, htags]
  rfl

theorem toString_dropTags (m : CMessage) (time : timeval) (tags : MCString) :
    ({ m with time := time, mssTags := tags } : CMessage).toString ExcludeTags = m.toString ExcludeTags :=
  toString_congr rfl rfl rfl rfl

theorem view_timed (h : (Entry.Timed ts sFormat sText).line utils = some l) : view l = (reprint sFormat, sText, ts) := by
  obtain ⟨m, hm, rfl⟩ := map_eq_some_iff.1 h
  rw [view, toString_dropTags, reprint_ofLine utils hm]

theorem view_plain (h : (Entry.Plain sLine).line utils = some l) :
    ∃ time, view l = (reprint (escaped .ENAMEDFMT sLine), [], time) ∧
      (sLine.head? ≠ some (ch '@') → time = utils.getTime) := by
  obtain ⟨m, hm, rfl⟩ := map_eq_some_iff.1 h
  obtain ⟨sFormat, hescape, hline⟩ := bind_eq_some_iff.1 hm
  have hlen : sLine.length < 2 ^ 32 := (escape_n_isSome_iff sLine .ENAMEDFMT).1 (by rw [hescape]; rfl)
  rw [escape_n_ascii _ _ hlen, some_inj] at hescape
  rw [hescape]
  refine ⟨m.time, by rw [view, toString_dropTags m m.time, reprint_ofLine utils hline], fun hhead => ?_⟩
  have hnone : takePart (ch '@') sFormat = (none, sFormat) := by
    refine if_neg fun h0 => hhead ?_
    rw [← hescape] at h0
    cases sLine with
    | nil => exact h0
    | cons c s =>
      have hbyte : ∀ c : UInt8, (escapeTo .ENAMEDFMT c).head? = some (ch '@') → c = ch '@' := by decide +kernel
      have hne : ∀ c : UInt8, escapeTo .ENAMEDFMT c ≠ [] := by decide +kernel
      have hcons : escaped .ENAMEDFMT (c :: s) = escapeTo .ENAMEDFMT c ++ s.flatMap (escapeTo .ENAMEDFMT) := rfl
      rw [hcons, head?_append_of_ne_nil _ (hne c)] at h0
      rw [hbyte c h0]
      rfl
  obtain ⟨m', hparse, rfl⟩ := map_eq_some_iff.1 hline
  rw [parse_eq, hnone] at hparse
  obtain ⟨tags, htags, rfl⟩ := map_eq_some_iff.1 hparse
  cases htags
  rfl

theorem reprint_within (h : sFormat.length + 1 < 2 ^ 32) (hprint : reprint sFormat = some sText) :
    Within sText sFormat := by
  obtain ⟨m, hm⟩ := ofLine_isSome hprint stoppedClock
  refine @toString_ofLine_within stoppedClock _ _ h ?_
  rw [hm, bind_some, reprint_ofLine _ hm]
  exact hprint

/-- what is read holds no NUL -/
def Entry.Small : Entry → Prop
  | .Timed _ sFormat sText => (0 ∉ sFormat ∧ sFormat.length ≤ 2 ^ 20) ∧ 0 ∉ sText
  | .Plain sLine => 0 ∉ sLine ∧ sLine.length ≤ 2 ^ 20

theorem reprint_noNul (h : (0 : UInt8) ∉ sFormat) (hlen : sFormat.length ≤ 2 ^ 21)
    (hprint : reprint sFormat = some sText) : 0 ∉ sText := by
  have hwithin := reprint_within (by omega) hprint
  intro hm
  rcases hwithin.bytes 0 hm with hm | hm
  · exact h hm
  · exact absurd hm (by decide)

theorem Entry.Small.noNul {e : Entry} (h : e.Small) (hl : e.line utils = some l) :
    0 ∉ l.sText ∧ ∀ sFormat, l.message.toString ExcludeTags = some sFormat → 0 ∉ sFormat := by
  cases e with
  | Timed ts sFormat sText =>
    obtain ⟨⟨hformat, hlen⟩, htext⟩ := h
    obtain ⟨h1, h2, -⟩ := Prod.mk.inj (view_timed hl) |>.imp_right Prod.mk.inj
    exact ⟨h2 ▸ htext, fun s hs => reprint_noNul hformat (by omega) (h1 ▸ hs)⟩
  | Plain sLine =>
    obtain ⟨hline, hlen⟩ := h
    obtain ⟨time, hview, -⟩ := view_plain hl
    obtain ⟨h1, h2, -⟩ := Prod.mk.inj hview |>.imp_right Prod.mk.inj
    have hesc : (0 : UInt8) ∉ escaped .ENAMEDFMT sLine := by
      have hbyte : ∀ c : UInt8, c ≠ 0 → (0 : UInt8) ∉ escapeTo .ENAMEDFMT c := by decide +kernel
      have hflat : escaped .ENAMEDFMT sLine = sLine.flatMap (escapeTo .ENAMEDFMT) := rfl
      rw [hflat, mem_flatMap]
      rintro ⟨c, hc, h0⟩
      exact hbyte c (fun hc0 => hline (hc0 ▸ hc)) h0
    have hwidth : (escaped .ENAMEDFMT sLine).length ≤ 2 * sLine.length := by
      have htwo : ∀ c : UInt8, escapedWidth .ENAMEDFMT c ≤ 2 := by decide +kernel
      have hflat : escaped .ENAMEDFMT sLine = sLine.flatMap (escapeTo .ENAMEDFMT) := rfl
      rw [hflat, length_flatMap_escapeTo]
      have hsum := sum_le_card_nsmul (sLine.map (escapedWidth .ENAMEDFMT)) 2 fun x hx => by
        obtain ⟨c, -, rfl⟩ := mem_map.1 hx
        exact htwo c
      rw [length_map, smul_eq_mul] at hsum
      omega
    exact ⟨h2 ▸ not_mem_nil, fun s hs => reprint_noNul hesc (by omega) (h1 ▸ hs)⟩

/-! ## What is read of a file -/

theorem length_of_mem_split {s v : CString} {c : UInt8} {bAllowEmpty : Bool} (h : v ∈ s.split c bAllowEmpty) :
    v.length ≤ s.length := by
  have hloop : ∀ (p sTmp : CString), v ∈ splitLoop c bAllowEmpty sTmp p → v.length ≤ sTmp.length + p.length := by
    intro p
    induction p with
    | nil =>
      intro sTmp hv
      rw [splitLoop] at hv
      split_ifs at hv
      · cases hv
      · rw [mem_singleton.1 hv]
        omega
    | cons a p ih =>
      intro sTmp hv
      rw [splitLoop] at hv
      split_ifs at hv
      · rcases mem_cons.1 hv with rfl | hv
        · omega
        · have := ih [] hv
          simp only [length_nil, length_cons] at this ⊢
          omega
      · have := ih [] hv
        simp only [length_nil, length_cons] at this ⊢
        omega
      · have := ih _ hv
        simp only [length_append, length_cons, length_nil] at this ⊢
        omega
  have hsub : s.cStr.length ≤ s.length := (takeWhile_sublist _).length_le
  have := hloop s.cStr [] h
  simp only [length_nil] at this
  omega

theorem trim_sublist : (trim s).Sublist s := by
  have hright : ((s.trimLeft blanks).trimRight_n blanks).Sublist (s.trimLeft blanks) := by
    obtain ⟨b, hb, -, -⟩ := trimRight_spec (s.trimLeft blanks)
    conv_rhs => rw [hb]
    exact sublist_append_left _ _
  exact hright.trans (dropWhile_sublist _)

theorem head?_trim {c : UInt8} (h : c ∉ blanks) (s : CString) : (trim (c :: s)).head? = some c := by
  have hleft : CString.trimLeft (c :: s) blanks = c :: s := dropWhile_cons_of_neg (by simpa using h)
  obtain ⟨b, hb, hblank, -⟩ := trimRight_spec (c :: s)
  rw [trim, hleft]
  cases hr : CString.trimRight_n (c :: s) blanks with
  | nil =>
    rw [hr, nil_append] at hb
    exact absurd (hblank c (hb ▸ mem_cons_self ..)) h
  | cons d r =>
    rw [hr, cons_append, List.cons.injEq] at hb
    rw [hb.1]
    rfl

theorem token_rest_sublist (c : UInt8) : (s.token 1 true c false).Sublist s := by
  rw [token, if_neg Bool.false_ne_true, if_pos rfl, skipTokens_word, skipTokens]
  exact (dropWhile_sublist _).trans ((dropWhile_sublist _).trans (dropWhile_sublist _))

theorem entries_small (h : ∀ v ∈ vs, (0 : UInt8) ∉ v ∧ v.length ≤ 2 ^ 20) :
    ∀ e ∈ entries vs, e.Small := by
  have hsub : ∀ {s v : CString}, s.Sublist v → (0 : UInt8) ∉ v ∧ v.length ≤ 2 ^ 20 → (0 : UInt8) ∉ s ∧
    s.length ≤ 2 ^ 20 :=
    fun hs hv => ⟨fun h0 => hv.1 (hs.subset h0), hs.length_le.trans hv.2⟩
  fun_induction entries vs with
  | case1 => exact fun e he => absurd he (by simp)
  | case2 it =>
    intro e he
    rw [mem_singleton.1 he]
    exact hsub (trim_sublist it) (h it (by simp))
  | case3 it next rest hat ih =>
    intro e he
    rcases mem_cons.1 he with rfl | he
    · exact ⟨hsub ((token_rest_sublist _ _).trans (trim_sublist it)) (h it (by simp)),
        (hsub (trim_sublist next) (h next (by simp))).1⟩
    · exact ih (fun v hv => h v (by simp [hv])) e he
  | case4 it next rest hat ih =>
    intro e he
    rcases mem_cons.1 he with rfl | he
    · exact hsub (trim_sublist it) (h it (by simp))
    · exact ih (fun v hv => h v (mem_cons_of_mem _ hv)) e he

/-- how many lines an entry takes -/
def Entry.cost : Entry → ℕ
  | .Timed _ _ _ => 2
  | .Plain _ => 1

theorem sum_cost (vs : VCString) : ((entries vs).map Entry.cost).sum = vs.length := by
  fun_induction entries vs with
  | case1 => rfl
  | case2 => rfl
  | case3 it next rest hat ih =>
    simp only [map_cons, sum_cons, ih, Entry.cost, length_cons]
    omega
  | case4 it next rest hat ih =>
    rw [map_cons, sum_cons, ih]
    simp only [Entry.cost, length_cons]
    omega

theorem plain_at {old new : List Entry} (h : entries vs = old ++ .Plain sLine :: new)
    (hat : sLine.head? = some (ch '@')) : new = [] ∧ ∃ v, vs.getLast? = some v ∧ sLine = trim v := by
  fun_induction entries vs generalizing old with
  | case1 => simp at h
  | case2 it =>
    cases old with
    | nil =>
      rw [nil_append, List.cons.injEq] at h
      obtain ⟨h1, h2⟩ := h
      injection h1 with h1
      exact ⟨h2.symm, it, rfl, h1.symm⟩
    | cons e old => simp at h
  | case3 it next rest hit ih =>
    cases old with
    | nil => simp at h
    | cons e old =>
      rw [cons_append, List.cons.injEq] at h
      obtain ⟨hnew, v, hv, hline⟩ := ih h.2
      refine ⟨hnew, v, ?_, hline⟩
      rw [getLast?_cons_cons, getLast?_cons, hv]
      rfl
  | case4 it next rest hit ih =>
    cases old with
    | nil =>
      rw [nil_append, List.cons.injEq] at h
      injection h.1 with h1
      exact absurd (h1 ▸ hat) hit
    | cons e old =>
      rw [cons_append, List.cons.injEq] at h
      obtain ⟨hnew, v, hv, hline⟩ := ih h.2
      exact ⟨hnew, v, by rw [getLast?_cons_cons, hv], hline⟩

/-- **The lines of a file as they were written** are read one after the other. -/
theorem entries_fileLines (h : ∀ l ∈ ls, IsLong l.message.time.tv_sec ∧ IsLong l.message.time.tv_usec) :
    entries (fileLines ls) = ls.map fun l => .Timed l.message.time (formatRead (formatOf l)) (trim l.sText) := by
  induction ls with
  | nil => rfl
  | cons l ls ih =>
    obtain ⟨hsec, husec⟩ := h l (mem_cons_self ..)
    obtain ⟨hhead, hzero, hrest⟩ := header_read l.message.time (formatOf l)
    have htime := lineTime_stamp hsec husec hzero
    rw [fileLines_cons, headerLine, entries, if_pos hhead, htime, hrest,
      ih fun l' hl' => h l' (mem_cons_of_mem _ hl')]
    rfl

/-! ## The round trip -/

/-- an entry gives a line again -/
def Gives (utils : CUtils) (e : Entry) (l : CBufLine) : Prop := ∃ l', e.line utils = some l' ∧ view l' = view l

theorem gives_of_mapM {es : List Entry} :
    ∀ {ls : List CBufLine}, es.mapM (Entry.line utils) = some ls →
    ∀ (k : ℕ) {lines : List CBufLine}, (ls.drop k).map view = lines.map view →
      List.Forall₂ (Gives utils) (es.drop k) lines := by
  induction es with
  | nil =>
    intro ls h k lines hv
    simp only [mapM_nil, Option.pure_def, Option.some.injEq] at h
    rw [← h, drop_nil, map_nil] at hv
    rw [drop_nil, map_eq_nil_iff.1 hv.symm]
    exact .nil
  | cons e es ih =>
    intro ls h k lines hv
    rw [mapM_cons] at h
    obtain ⟨l, hl, h⟩ := bind_eq_some_iff.1 h
    obtain ⟨ls', hls, h⟩ := bind_eq_some_iff.1 h
    cases h
    cases k with
    | zero =>
      rw [drop_zero] at hv
      obtain ⟨m, lines', rfl, hm, hrest⟩ := map_eq_cons_iff.1 hv.symm
      refine .cons ⟨l, hl, hm.symm⟩ ?_
      have htail := @ih _ hls 0 lines' (by rw [drop_zero]; exact hrest.symm)
      rwa [drop_zero] at htail
    | succ k => exact ih hls k (by simpa using hv)

theorem mapM_of_gives {es : List Entry} {lines : List CBufLine} (h : List.Forall₂ (Gives utils) es lines) :
    ∃ ls, es.mapM (Entry.line utils) = some ls ∧ ls.map view = lines.map view := by
  induction h with
  | nil => exact ⟨[], rfl, rfl⟩
  | cons hg _ ih =>
    obtain ⟨l', hl', hv⟩ := hg
    obtain ⟨ls, hls, hvs⟩ := ih
    exact ⟨l' :: ls, by rw [mapM_cons, hl', hls]; rfl, by rw [map_cons, map_cons, hv, hvs]⟩

/-- **Writing and reading** a buffer whose formats can be printed -/
theorem onBoot_saved (utils : CUtils) (c : CBlowfish) {eType : EBufferType}
    (htype : eType = .ChanBuffer ∨ eType = .QueryBuffer) (hname : TargetName sName)
    (hformats : ∀ l ∈ Buffer.lines, (l.message.toString ExcludeTags).isSome) :
    (saveBufferToDisk c Buffer (tokenOf eType ++ sName)).bind (onBoot utils c eType sName { Buffer with lines := [] }) =
      if (tokenOf eType ++ sName ++ ch '\n' :: unlines (fileLines Buffer.lines)).length < 512 * 1024 then
        bootStrapLoop utils (((unlines (fileLines Buffer.lines)).trimLeft (sName ++ lit "\n")).split (ch '\n') true)
          { Buffer with lines := [] }
      else some { Buffer with lines := [] } := by
  rw [saveBufferToDisk, contentOf_eq hformats, map_some, bind_some, onBoot, decryptBuffer_saved c htype hname]
  split_ifs with hsize hsame hsame
  · simp [bootStrap]
  · simp [CString.equals] at hsame
  · rcases htype with rfl | rfl <;> simp at hsame
  · rfl

theorem fileLines_clean (hBuffer : Writable Buffer) (hnul : ∀ l ∈ Buffer.lines, (0 : UInt8) ∉ formatOf l ∧ 0 ∉ l.sText) :
    ∀ v ∈ fileLines Buffer.lines, ch '\n' ∉ v ∧ 0 ∉ v := by
  intro v hv
  obtain ⟨l, hl, hv⟩ := mem_flatMap.1 hv
  have hformat : ch '\n' ∉ formatOf l := by
    unfold formatOf
    cases hf : l.message.toString ExcludeTags with
    | none => exact not_mem_nil
    | some sFormat => exact hBuffer.formats l hl sFormat hf
  have hstamp := stamp_clean l.message.time
  simp only [mem_cons, not_mem_nil, or_false] at hv
  rcases hv with rfl | rfl
  · unfold headerLine
    rw [mem_append, mem_cons, mem_append, mem_cons, not_or, not_or, not_or, not_or]
    exact ⟨⟨fun hm => (hstamp _ hm).1 (by decide), by decide, hformat⟩, fun hm => (hstamp _ hm).2 rfl, by
      decide, (hnul l hl).1⟩
  · exact ⟨hBuffer.texts l hl, (hnul l hl).2⟩

theorem trimLeft_fileLines (hat : ch '@' ∉ sName) (ls : List CBufLine) :
    (unlines (fileLines ls)).trimLeft (sName ++ lit "\n") = unlines (fileLines ls) := by
  cases ls with
  | nil => rfl
  | cons l ls =>
    have hmem : ch '@' ∉ sName ++ lit "\n" := by
      rw [mem_append, not_or]
      exact ⟨hat, by decide⟩
    have hcons : unlines (fileLines (l :: ls)) = ch '@' :: (unlines (fileLines (l :: ls))).tail := rfl
    rw [hcons, CString.trimLeft, dropWhile_cons_of_neg (by simpa using hmem)]

theorem Stable.gives (h : Stable l) (utils : CUtils) :
    Gives utils (.Timed l.message.time (formatRead (formatOf l)) (trim l.sText)) l := by
  obtain ⟨sFormat, hformat, hhead, htrim, -, hreprint⟩ := h.format
  have hread : formatRead (formatOf l) = sFormat := by
    rw [formatOf, hformat, getD_some]
    exact (formatRead_eq_iff sFormat).2 ⟨hhead, htrim⟩
  obtain ⟨m, hm⟩ := ofLine_isSome hreprint utils
  have hline : (Entry.Timed l.message.time (formatRead (formatOf l)) (trim l.sText)).line utils =
      some ⟨{ m with time := l.message.time, mssTags := .empty }, trim l.sText⟩ := by
    rw [Entry.line, hread, hm]
    rfl
  exact ⟨_, hline, by rw [view_timed hline, hread, hreprint, h.text, view, hformat]⟩

theorem stable_of_gives (hsome : (l.message.toString ExcludeTags).isSome) (hlen : (formatOf l).length + 1 < 2 ^ 32)
    (hnul : (0 : UInt8) ∉ formatOf l ∧ 0 ∉ l.sText)
    (h : Gives utils (.Timed l.message.time (formatRead (formatOf l)) (trim l.sText)) l) : Stable l := by
  obtain ⟨sFormat, hformat⟩ := isSome_iff_exists.1 hsome
  have hself : formatOf l = sFormat := by rw [formatOf, hformat, getD_some]
  obtain ⟨l', hline, hview⟩ := h
  rw [view_timed hline, view, hformat, hself] at hview
  obtain ⟨hreprint, htext, -⟩ := Prod.mk.inj hview |>.imp_right Prod.mk.inj
  rw [hself] at hnul hlen
  -- printing and parsing never make a text longer, so trimming has taken nothing off
  have hsub := formatRead_sublist sFormat
  have hless := hsub.length_le
  have hwithin := (reprint_within (by omega) hreprint).length
  have hread : formatRead sFormat = sFormat := hsub.eq_of_length_le hwithin
  obtain ⟨hhead, htrim⟩ := (formatRead_eq_iff sFormat).1 hread
  exact ⟨⟨sFormat, hformat, hhead, htrim, hnul.1, by rw [hread] at hreprint; exact hreprint⟩, htext, hnul.2⟩

/-- **Enough for a round trip** -/
theorem restored_of_stable (utils : CUtils) (c : CBlowfish) {eType : EBufferType}
    (htype : eType = .ChanBuffer ∨ eType = .QueryBuffer) {sName : CString} (hname : TargetName sName) {Buffer : CBuffer}
    (hBuffer : Writable Buffer) (hat : ch '@' ∉ sName) (hfits : Fits Buffer (tokenOf eType ++ sName))
    (hstable : ∀ l ∈ Buffer.lines, Stable l) : Restored utils c eType sName Buffer := by
  have hformats : ∀ l ∈ Buffer.lines, (l.message.toString ExcludeTags).isSome := fun l hl => by
    obtain ⟨sFormat, hformat, -⟩ := (hstable l hl).format
    rw [hformat]
    rfl
  have hnul : ∀ l ∈ Buffer.lines, (0 : UInt8) ∉ formatOf l ∧ 0 ∉ l.sText := fun l hl => by
    obtain ⟨sFormat, hformat, -, -, h0, -⟩ := (hstable l hl).format
    rw [formatOf, hformat]
    exact ⟨h0, (hstable l hl).noNul⟩
  obtain ⟨s, hs, hsize⟩ := hfits
  rw [contentOf_eq hformats, some_inj] at hs
  have hgives : List.Forall₂ (Gives utils) (entries (fileLines Buffer.lines)) Buffer.lines := by
    rw [entries_fileLines _ hBuffer.times, forall₂_map_left_iff, forall₂_same]
    exact fun l hl => (hstable l hl).gives utils
  obtain ⟨ls, hls, hview⟩ := mapM_of_gives hgives
  rw [Restored, onBoot_saved utils c htype hname hformats, hs, if_pos hsize, trimLeft_fileLines hat,
    split_unlines (fileLines_clean hBuffer hnul), bootStrapLoop_eq]
  rcases eq_or_ne Buffer.uLineCount 0 with h0 | h0
  · have hnil : Buffer.lines = [] := by
      have hsize := hBuffer.size
      rw [h0] at hsize
      exact length_eq_zero_iff.1 (Nat.le_zero.1 hsize)
    rw [hnil]
    exact ⟨_, rfl, rfl⟩
  · rw [foldlM_lines utils _ (b := { Buffer with lines := [] }) h0 (Nat.zero_le _), hls]
    refine ⟨_, rfl, ?_⟩
    have hlen : ls.length = Buffer.lines.length := by
      have := congrArg List.length hview
      rwa [length_map, length_map] at this
    have hlast : lastN Buffer.uLineCount.toNat ([] ++ ls) = ls := lastN_of_le (hlen ▸ hBuffer.size)
    exact (congrArg (List.map view) hlast).trans hview

theorem no_more {k n : ℕ} (hvs : vs.length ≤ 2 * n) (hkept : ((entries vs).drop k).length = n)
    (htimed : ∀ e ∈ (entries vs).drop k, e.cost = 2) : (entries vs).drop k = entries vs ∧ vs.length = 2 * n := by
  have hcost := sum_cost vs
  rw [← take_append_drop k (entries vs), map_append, sum_append] at hcost
  have hdrop : (((entries vs).drop k).map Entry.cost).sum = 2 * n := by
    rw [map_congr_left htimed, map_const', sum_replicate, hkept, smul_eq_mul, Nat.mul_comm]
  have htake : ((entries vs).take k).length ≤ (((entries vs).take k).map Entry.cost).sum := by
    have hpos : ∀ e : Entry, 1 ≤ e.cost := fun e => by cases e <;> simp [Entry.cost]
    have hle := card_nsmul_le_sum (((entries vs).take k).map Entry.cost) 1 fun x hx => by
      obtain ⟨e, -, rfl⟩ := mem_map.1 hx
      exact hpos e
    simpa using hle
  have hnil : (entries vs).take k = [] := length_eq_zero_iff.1 (by omega)
  refine ⟨?_, by omega⟩
  conv_rhs => rw [← take_append_drop k (entries vs), hnil, nil_append]

theorem gives_last {es : List Entry} {e : Entry} {lines : List CBufLine}
    (h : List.Forall₂ (Gives utils) (es ++ [e]) lines) : ∃ l, lines.getLast? = some l ∧ Gives utils e l := by
  have hrev := forall₂_reverse_iff.2 h
  rw [reverse_append, reverse_singleton, singleton_append] at hrev
  cases hl : lines.reverse with
  | nil =>
    rw [hl] at hrev
    cases hrev
  | cons l ls =>
    rw [hl] at hrev
    cases hrev with
    | cons hgives _ => exact ⟨l, by rw [← head?_reverse, hl]; rfl, hgives⟩

theorem exists_of_forall₂ {α β : Type} {R : α → β → Prop} {l : List α} {l' : List β} (h : List.Forall₂ R l l') :
    (∀ a ∈ l, ∃ b ∈ l', R a b) ∧ ∀ b ∈ l', ∃ a ∈ l, R a b := by
  induction h with
  | nil => simp
  | cons hab _ ih =>
    refine ⟨fun a ha => ?_, fun b hb => ?_⟩
    · rcases mem_cons.1 ha with rfl | ha
      · exact ⟨_, mem_cons_self .., hab⟩
      · obtain ⟨b, hb, h⟩ := ih.1 a ha
        exact ⟨b, mem_cons_of_mem _ hb, h⟩
    · rcases mem_cons.1 hb with rfl | hb
      · exact ⟨_, mem_cons_self .., hab⟩
      · obtain ⟨a, ha, h⟩ := ih.2 b hb
        exact ⟨a, mem_cons_of_mem _ ha, h⟩

theorem exists_now (lines : List CBufLine) : ∃ now : timeval, ∀ l ∈ lines, l.message.time ≠ now := by
  obtain ⟨i, hi⟩ := Infinite.exists_notMem_finset (lines.map fun l => l.message.time.tv_sec).toFinset
  refine ⟨⟨i, 0⟩, fun l hl h0 => hi ?_⟩
  rw [List.mem_toFinset, List.mem_map]
  exact ⟨l, hl, by rw [h0]⟩

/-- **With '@' in the name** the first header line is cut, and what is left of it can not give the first line again. -/
theorem header_cut {utils : CUtils} {l : CBufLine} {w : CString} (hw : w <:+ headerLine l)
    (hhead : w.head? ≠ some (ch '@'))
    (htrim : (trim w).head? = some (ch '@')) (hlen : w.length + 1 < 2 ^ 32)
    (hsome : (l.message.toString ExcludeTags).isSome)
    {ts : timeval} {sText : CString} : ¬Gives utils (.Timed ts ((trim w).token 1 true (ch ' ') false) sText) l := by
  rintro ⟨l', hline, hview⟩
  obtain ⟨sFormat, hformat⟩ := isSome_iff_exists.1 hsome
  rw [view_timed hline, view, hformat] at hview
  have hreprint := (Prod.mk.inj hview).1
  have htoken := token_rest_sublist (trim w) (ch ' ')
  have htokenLen := htoken.length_le
  have htrimLen := (trim_sublist w).length_le
  have hwithin := (reprint_within (by omega) hreprint).length
  have hne : trim w ≠ [] := fun h0 => by simp [h0] at htrim
  have hshort := length_token_rest_lt hne (ch ' ')
  have hself : formatOf l = sFormat := by rw [formatOf, hformat, getD_some]
  have hsmall : (trim w).length < w.length := by
    refine lt_of_le_of_ne htrimLen fun h0 => hhead ?_
    rw [(trim_sublist w).eq_of_length h0] at htrim
    exact htrim
  have hrest : w.length ≤ sFormat.length + 1 := by
    obtain ⟨t, ht⟩ := hw
    rw [headerLine, hself] at ht
    rcases append_eq_append_iff.1 ht with ⟨a, hstamp, hwa⟩ | ⟨a, -, hwa⟩
    · cases a with
      | nil => rw [hwa]; simp
      | cons d a =>
        have hd : d ∉ blanks := (stamp_clean l.message.time d (by rw [hstamp]; simp)).1
        rw [hwa, cons_append] at htrim hhead
        rw [head?_trim hd] at htrim
        exact absurd htrim hhead
    · have hlen' := congrArg List.length hwa
      simp only [length_cons, length_append] at hlen'
      omega
  omega

/-- the lines of the text behind the name -/
def linesRead (sName : CString) (ls : List CBufLine) : VCString :=
  ((unlines (fileLines ls)).trimLeft (sName ++ lit "\n")).split (ch '\n') true

theorem length_le_unlines {v : CString} (h : v ∈ vs) : v.length ≤ (unlines vs).length := by
  obtain ⟨old, new, rfl⟩ := append_of_mem h
  simp only [unlines, flatMap_append, flatMap_cons, length_append]
  omega

theorem getLast?_fileLines : (fileLines ls).getLast? = ls.getLast?.map CBufLine.sText := by
  induction ls with
  | nil => rfl
  | cons l ls ih =>
    rw [fileLines_cons, getLast?_cons_cons, getLast?_cons, ih, getLast?_cons]
    cases ls.getLast? <;> rfl

theorem read_of_restored {c : CBlowfish} {eType : EBufferType} (htype : eType = .ChanBuffer ∨ eType = .QueryBuffer)
    (hname : TargetName sName) (hBuffer : Writable Buffer) (hne : Buffer.lines ≠ [])
    (h : Restored utils c eType sName Buffer) :
    (∀ l ∈ Buffer.lines, (l.message.toString ExcludeTags).isSome) ∧
      (tokenOf eType ++ sName ++ ch '\n' :: unlines (fileLines Buffer.lines)).length < 512 * 1024 ∧
      ∃ k, List.Forall₂ (Gives utils) ((entries (linesRead sName Buffer.lines)).drop k) Buffer.lines := by
  obtain ⟨b, hb, hview⟩ := h
  have hformats : ∀ l ∈ Buffer.lines, (l.message.toString ExcludeTags).isSome := by
    obtain ⟨sFile, hfile, -⟩ := bind_eq_some_iff.1 hb
    obtain ⟨s, hs, -⟩ := map_eq_some_iff.1 hfile
    obtain ⟨texts, htexts, -⟩ := map_eq_some_iff.1 hs
    exact isSome_of_mapM_bufLineText (by rw [htexts]; rfl)
  rw [onBoot_saved utils c htype hname hformats] at hb
  split_ifs at hb with hsize
  · have h0 : Buffer.uLineCount ≠ 0 := by
      intro h0
      have hcount := hBuffer.size
      rw [h0] at hcount
      exact hne (length_eq_zero_iff.1 (Nat.le_zero.1 hcount))
    rw [bootStrapLoop_eq, foldlM_lines utils _ (b := { Buffer with lines := [] }) h0 (Nat.zero_le _)] at hb
    obtain ⟨ls, hls, rfl⟩ := map_eq_some_iff.1 hb
    exact ⟨hformats, hsize, _, gives_of_mapM hls _ hview⟩
  · cases hb
    exact absurd (map_eq_nil_iff.1 hview.symm) hne

theorem no_plain {now : timeval} {ls : List CBufLine} (hnow : ∀ l ∈ ls, l.message.time ≠ now) {old new : VCString}
    {l₀ w : CString} (hfile : fileLines ls = old ++ l₀ :: new) (hw : w <:+ l₀) (hwne : w ≠ []) {k : ℕ}
    (hgives : List.Forall₂ (Gives { stoppedClock with getTime := now }) ((entries (w :: new)).drop k) ls) :
    .Plain sLine ∉ (entries (w :: new)).drop k := by
  intro he
  obtain ⟨l, hl, l', hline, hview⟩ := (exists_of_forall₂ hgives).1 _ he
  obtain ⟨time, hplain, htime⟩ := view_plain hline
  by_cases hat : sLine.head? = some (ch '@')
  · obtain ⟨o, rest, hsplit⟩ := append_of_mem he
    have hall : entries (w :: new) = ((entries (w :: new)).take k ++ o) ++ .Plain sLine :: rest := by
      conv_lhs => rw [← take_append_drop k (entries (w :: new)), hsplit, ← append_assoc]
    obtain ⟨rfl, v, hv, rfl⟩ := plain_at hall hat
    rw [hsplit] at hgives
    obtain ⟨last, hlast, l'', hline'', hview''⟩ := gives_last hgives
    obtain ⟨_, hplain'', -⟩ := view_plain hline''
    have htext : last.sText = [] := (Prod.mk.inj (Prod.mk.inj (hplain''.symm.trans hview'')).2).1.symm
    have hend := getLast?_fileLines ls
    rw [hlast, map_some, htext, hfile, getLast?_append, getLast?_cons, some_or, some_inj] at hend
    rw [getLast?_cons, some_inj] at hv
    have hvNil : v = [] := by
      cases new with
      | nil =>
        rw [getLast?_nil, getD_none] at hend
        rw [hend] at hw
        exact absurd (suffix_nil.1 hw) hwne
      | cons a new =>
        rw [getLast?_cons, getD_some] at hv hend
        exact hv.symm.trans hend
    rw [hvNil] at hat
    cases hat
  · refine hnow l hl ?_
    have htimes : l.message.time = time := (Prod.mk.inj (Prod.mk.inj (hplain.symm.trans hview)).2).2.symm
    exact htimes.trans (htime hat)

/-- **Needed for a round trip** of a buffer that has lines -/
theorem stable_of_restored {c : CBlowfish} {eType : EBufferType} (htype : eType = .ChanBuffer ∨ eType = .QueryBuffer)
    (hname : TargetName sName) (hBuffer : Writable Buffer) (hne : Buffer.lines ≠ [])
    (h : ∀ utils, Restored utils c eType sName Buffer) :
    ch '@' ∉ sName ∧ Fits Buffer (tokenOf eType ++ sName) ∧ ∀ l ∈ Buffer.lines, Stable l := by
  obtain ⟨now, hnow⟩ := exists_now Buffer.lines
  obtain ⟨hformats, hsize, k, hgives⟩ :=
    read_of_restored htype hname hBuffer hne (h { stoppedClock with getTime := now })
  set vs := linesRead sName Buffer.lines with hvs
  have hfits : Fits Buffer (tokenOf eType ++ sName) := ⟨_, contentOf_eq hformats _, hsize⟩
  have hsizeLines : (unlines (fileLines Buffer.lines)).length + 1 < 512 * 1024 := by
    simp only [length_append, length_cons] at hsize
    omega
  have hsmall : ∀ e ∈ entries vs, e.Small := by
    refine entries_small fun v hv => ⟨(mem_split hv).2.1, (length_of_mem_split hv).trans ?_⟩
    have hdrop : ((unlines (fileLines Buffer.lines)).trimLeft (sName ++ lit "\n")).length ≤
      (unlines (fileLines Buffer.lines)).length := (dropWhile_sublist _).length_le
    omega
  obtain ⟨hof, hfrom⟩ := exists_of_forall₂ hgives
  -- nothing that is read holds a NUL
  have hnul : ∀ l ∈ Buffer.lines, (0 : UInt8) ∉ formatOf l ∧ 0 ∉ l.sText := by
    intro l hl
    obtain ⟨e, he, l', hline, hview⟩ := hfrom l hl
    obtain ⟨htext, hformat⟩ := (hsmall e (mem_of_mem_drop he)).noNul hline
    obtain ⟨hv1, hv2, -⟩ := Prod.mk.inj hview |>.imp_right Prod.mk.inj
    obtain ⟨sFormat, hsome⟩ := isSome_iff_exists.1 (hformats l hl)
    rw [formatOf, hsome, getD_some, ← hv2]
    exact ⟨hformat sFormat (hv1.trans hsome), htext⟩
  have hclean := fileLines_clean hBuffer hnul
  have hlenFormat : ∀ l ∈ Buffer.lines, (formatOf l).length + 1 < 2 ^ 32 := by
    intro l hl
    have hsub : (headerLine l).length ≤ (unlines (fileLines Buffer.lines)).length :=
      length_le_unlines (mem_flatMap.2 ⟨l, hl, by simp⟩)
    have hhead : (headerLine l).length = (stamp l.message.time).length + ((formatOf l).length + 1) := by
      simp [headerLine]
    omega
  by_cases hat : ch '@' ∈ sName
  · exfalso
    rcases @trimLeft_unlines (sName ++ lit "\n") (mem_append_right _ (mem_singleton_self _))
      (fileLines Buffer.lines) with
      hnil | ⟨old, l₀, w, new, hfile, hw, hwne, hwhead, heq⟩
    · have hvsNil : vs = [] := by rw [hvs, linesRead, hnil]; rfl
      rw [hvsNil, entries, drop_nil] at hgives
      cases hl : Buffer.lines with
      | nil => exact hne hl
      | cons x rest =>
        rw [hl] at hgives
        cases hgives
    have hvsCons : vs = w :: new := by
      rw [hvs, linesRead, heq]
      refine split_unlines fun v hv => ?_
      rcases mem_cons.1 hv with rfl | hv
      · have hl₀ := hclean l₀ (by rw [hfile]; simp)
        exact ⟨fun h0 => hl₀.1 (hw.subset h0), fun h0 => hl₀.2 (hw.subset h0)⟩
      · exact hclean v (by rw [hfile]; simp [hv])
    have htimed : ∀ e ∈ (entries vs).drop k, e.cost = 2 := by
      intro e he
      cases e with
      | Timed ts sFormat sText => rfl
      | Plain sLine =>
        rw [hvsCons] at hgives he
        exact absurd he (no_plain hnow hfile hw hwne hgives)
    have hlen : (fileLines Buffer.lines).length = 2 * Buffer.lines.length := length_fileLines _
    have hlen' : (fileLines Buffer.lines).length = old.length + (1 + new.length) := by
      rw [hfile, length_append, length_cons, Nat.add_comm new.length]
    obtain ⟨hall, hcount⟩ := no_more (by rw [hvsCons, length_cons]; omega) hgives.length_eq htimed
    have hold : old = [] := by
      rw [hvsCons, length_cons] at hcount
      exact length_eq_zero_iff.1 (by omega)
    rw [hall] at hgives htimed
    cases hl : Buffer.lines with
    | nil => exact hne hl
    | cons x rest =>
      rw [hold, nil_append, hl, fileLines_cons, List.cons.injEq] at hfile
      obtain ⟨rfl, rfl⟩ := hfile
      have hx : x ∈ Buffer.lines := hl ▸ mem_cons_self ..
      rw [hvsCons] at hgives htimed
      rw [hl] at hgives
      by_cases htrim : (trim w).head? = some (ch '@')
      · rw [entries, if_pos htrim] at hgives
        obtain ⟨hfirst, -⟩ := forall₂_cons.1 hgives
        refine header_cut hw (fun h0 => ?_) htrim ?_ (hformats x hx) hfirst
        · exact hwhead _ h0 (mem_append_left _ hat)
        · have hwlen := hw.length_le
          have hxlen := @length_le_unlines (fileLines Buffer.lines) (headerLine x)
            (mem_flatMap.2 ⟨x, hx, by simp⟩)
          omega
      · rw [entries, if_neg htrim] at htimed
        exact absurd (htimed _ (mem_cons_self ..)) (by simp [Entry.cost])
  · refine ⟨hat, hfits, ?_⟩
    have hread : vs = fileLines Buffer.lines := by
      rw [hvs, linesRead, trimLeft_fileLines hat, split_unlines hclean]
    rw [hread, entries_fileLines _ hBuffer.times] at hgives
    have hk : k = 0 := by
      have hlen := hgives.length_eq
      have hpos := length_pos_iff.2 hne
      rw [length_drop, length_map] at hlen
      omega
    rw [hk, drop_zero, forall₂_map_left_iff, forall₂_same] at hgives
    exact fun l hl => stable_of_gives (hformats l hl) (hlenFormat l hl) (hnul l hl) (hgives l hl)

/-- **The round trip of a saved buffer:** it has its lines again, whatever the time is when it is read, exactly if there are none, or
no '@' is in the name, the file is small enough to be read, and each line is left alone by trimming, parsing and printing. -/
theorem saved_buffer_iff (c : CBlowfish) {eType : EBufferType} (htype : eType = .ChanBuffer ∨ eType = .QueryBuffer)
    {sName : CString} (hname : TargetName sName) {Buffer : CBuffer} (hBuffer : Writable Buffer) :
    (∀ utils, Restored utils c eType sName Buffer) ↔
      Buffer.lines = [] ∨
        ch '@' ∉ sName ∧ Fits Buffer (tokenOf eType ++ sName) ∧ ∀ l ∈ Buffer.lines, Stable l := by
  refine ⟨fun h => ?_, ?_⟩
  · rcases eq_or_ne Buffer.lines [] with hnil | hne
    · exact .inl hnil
    · exact .inr (stable_of_restored htype hname hBuffer hne h)
  · rintro (hnil | ⟨hat, hfits, hstable⟩) utils
    · have hformats : ∀ l ∈ Buffer.lines, (l.message.toString ExcludeTags).isSome := fun l hl => by simp [hnil] at hl
      rw [Restored, onBoot_saved utils c htype hname hformats, hnil]
      refine ⟨{ Buffer with lines := [] }, ?_, rfl⟩
      split_ifs <;> rfl
    · exact restored_of_stable utils c htype hname hBuffer hat hfits hstable

/-- each byte is flipped by a fixed one -/
def flips : CBlowfish where
  encrypt s := s.map (· ^^^ 0x5A)
  decrypt s := s.map (· ^^^ 0x5A)
  length_encrypt s := length_map _
  decrypt_encrypt s := by
    have hbyte : ∀ c : UInt8, c ^^^ 0x5A ^^^ 0x5A = c := by decide +kernel
    simp [Function.comp_def, hbyte]

/-- a message to the channel "#c" -/
def sampleLine (sText : CString) : CBufLine :=
  ⟨{ CMessage.blank stoppedClock with
      nick := ⟨lit "n", lit "u", lit "h"⟩
      sCommand := lit "PRIVMSG"
      vsParams := [lit "#c", lit "\x7btext\x7d"]
      time := ⟨1700000000, 5⟩
      bColon := true }, sText⟩

def sampleBuffer (sText : CString) : CBuffer := ⟨[sampleLine sText], 50⟩

theorem saved_buffer_sample :
    (sampleBuffer (lit "hi there")).lines ≠ [] ∧
      ∀ utils, Restored utils flips .ChanBuffer (lit "#c") (sampleBuffer (lit "hi there")) := by
  refine ⟨cons_ne_nil _ _, ?_⟩
  have hformat : (sampleLine (lit "hi there")).message.toString ExcludeTags =
      some (lit ":n!u@h PRIVMSG #c :\x7btext\x7d") := by decide +kernel
  have hBuffer : Writable (sampleBuffer (lit "hi there")) := by
    refine ⟨fun l hl sFormat hs => ?_, fun l hl => ?_, fun l hl => ?_, by decide⟩
    · rw [mem_singleton.1 hl, hformat, mem_some_iff] at hs
      rw [← hs]
      decide
    · rw [mem_singleton.1 hl]
      decide
    · rw [mem_singleton.1 hl]
      unfold IsLong
      decide
  refine (saved_buffer_iff flips (.inl rfl) ⟨by decide, by decide, by decide⟩ hBuffer).2
    (.inr ⟨by decide, ?_, fun l hl => ?_⟩)
  · have hsize : (contentOf (sampleBuffer (lit "hi there")) (tokenOf .ChanBuffer ++ lit "#c")).any
        (fun s => s.length < 512 * 1024) = true := by decide +kernel
    cases hs : contentOf (sampleBuffer (lit "hi there")) (tokenOf .ChanBuffer ++ lit "#c") with
    | none => rw [hs] at hsize; cases hsize
    | some s =>
      rw [hs] at hsize
      exact ⟨s, hs, by simpa using hsize⟩
  · rw [mem_singleton.1 hl]
    exact ⟨⟨_, hformat, by decide, by decide +kernel, by decide +kernel, by decide +kernel⟩, by
      decide, by decide⟩

/-- With '@' in its name a buffer of one line comes back as two lines. A blank at the end of a text is lost. -/
theorem saved_buffer_lost :
    ¬Restored stoppedClock flips .ChanBuffer (lit "#a@b") (sampleBuffer (lit "hi")) ∧
      ¬Restored stoppedClock flips .ChanBuffer (lit "#c") (sampleBuffer (lit "hi ")) := by
  have htwo : ((saveBufferToDisk flips (sampleBuffer (lit "hi")) (tokenOf .ChanBuffer ++ lit "#a@b")).bind
      (onBoot stoppedClock flips .ChanBuffer (lit "#a@b") ⟨[], 50⟩)).map (fun b => b.lines.length) = some 2 := by
    decide +kernel
  have hblank : ((saveBufferToDisk flips (sampleBuffer (lit "hi ")) (tokenOf .ChanBuffer ++ lit "#c")).bind
      (onBoot stoppedClock flips .ChanBuffer (lit "#c") ⟨[], 50⟩)).map (fun b => b.lines.map CBufLine.sText) =
        some [lit "hi"] := by
    decide +kernel
  refine ⟨?_, ?_⟩
  · rintro ⟨b, hb, hview⟩
    have hsame : ((saveBufferToDisk flips (sampleBuffer (lit "hi")) (tokenOf .ChanBuffer ++ lit "#a@b")).bind
      (onBoot stoppedClock flips .ChanBuffer (lit "#a@b") ⟨[], 50⟩)) = some b := hb
    rw [hsame, map_some, some_inj] at htwo
    have hone := congrArg List.length hview
    rw [length_map, htwo] at hone
    cases hone
  · rintro ⟨b, hb, hview⟩
    have hsame : ((saveBufferToDisk flips (sampleBuffer (lit "hi ")) (tokenOf .ChanBuffer ++ lit "#c")).bind
      (onBoot stoppedClock flips .ChanBuffer (lit "#c") ⟨[], 50⟩)) = some b := hb
    rw [hsame, map_some, some_inj] at hblank
    have htexts := congrArg (List.map fun v => v.2.1) hview
    rw [List.map_map, List.map_map] at htexts
    have hlost : [lit "hi"] = [lit "hi "] := hblank.symm.trans htexts
    exact absurd hlost (by decide)

end SaveBuff

end ZNC
