/-
The line of a server: `GetString` and `Parse` of `src/Server.cpp`.

`Parse` reads a line that a user or the configuration gives: a path behind `unix:` or `unix:ssl:`, or a host and a port with a
plus for SSL, and a password. `GetString` prints it again for the configuration.

`Parse` looks for `ssl:` directly behind `unix:`, but skips spaces in front of the path. So a path that begins with `ssl:` is
read where a space stands in front of it, and printed without the space.

Results:
- `strtoul_uintText`: a number that is printed is read back;
- `parse_unixText`, `parse_tcpText`: what is read of a line that is put together from its parts;
- `server_round_trip_iff`: the lines whose server is read back from its own line.
-/
import ZNC.Decimal
import ZNC.ISupport
import ZNC.NetworkConfig

namespace ZNC

open CString Words NetworkClone List Config CString

/-! ## Model -/

namespace CServer

def parse (sLine : CString) : CServer :=
  let sLine := trim sLine
  if sLine.startsWith (lit "unix:") then
    let sLine := sLine.trimPrefix_n (lit "unix:")
    let bSSL := sLine.startsWith (lit "ssl:")
    let sLine := sLine.trimPrefix_n (lit "ssl:")
    let sPath := sLine.token 0 false (ch ' ') false
    let sPass := sLine.token 1 true (ch ' ') false
    .new sPath 0 sPass bSSL true
  else
    let sHost := sLine.token 0 false (ch ' ') false
    let sPort := sLine.token 1 false (ch ' ') false
    let bSSL := sPort.startsWith (lit "+")
    let uPort := (sPort.trimPrefix_n (lit "+")).toUShort
    let sPass := sLine.token 2 true (ch ' ') false
    .new sHost uPort sPass bSSL false

end CServer

/-! ## Numbers -/

theorem toNat_digit {c : Char} (hc : c.isDigit = true) : c.toUInt8.toNat = c.toNat ∧ 48 ≤ c.toNat ∧ c.toNat ≤ 57 := by
  obtain ⟨h1, h2⟩ := Char.isDigit_iff_toNat.1 hc
  have h48 : '0'.toNat = 48 := rfl
  have h57 : '9'.toNat = 57 := rfl
  have hmod : c.toUInt8.toNat = c.toNat % 2 ^ 8 := UInt32.toNat_toUInt8 c.val
  omega

theorem mem_uintText {n : ℕ} {b : UInt8} (h : b ∈ uintText n) : 48 ≤ b.toNat ∧ b.toNat ≤ 57 := by
  rw [uintText, lit, mem_map, Nat.toString_eq_repr, Nat.toList_repr] at h
  obtain ⟨c, hc, rfl⟩ := h
  obtain ⟨heq, h1, h2⟩ := toNat_digit (Nat.isDigit_of_mem_toDigits (by decide) (by decide) hc)
  exact ⟨heq ▸ h1, heq ▸ h2⟩

theorem isdigit_uintText {n : ℕ} {b : UInt8} (h : b ∈ uintText n) : isdigit b = true := by
  obtain ⟨h1, h2⟩ := mem_uintText h
  have h48 : (ch '0').toNat = 48 := rfl
  have h57 : (ch '9').toNat = 57 := rfl
  simp only [isdigit, Bool.and_eq_true, decide_eq_true_eq, UInt8.le_iff_toNat_le]
  omega

theorem not_mem_uintText {b : UInt8} (hb : isdigit b = false) (n : ℕ) : b ∉ uintText n := by
  intro h
  rw [isdigit_uintText h] at hb
  exact Bool.false_ne_true hb.symm

theorem foldl_uintText (n : ℕ) :
    (uintText n).foldl (fun n c => 10 * n + (c.toNat - (ch '0').toNat)) 0 = n := by
  have hdigits : ∀ (l : List Char) (init : ℕ), (∀ c ∈ l, c.isDigit = true) →
      (l.map Char.toUInt8).foldl (fun n c => 10 * n + (c.toNat - (ch '0').toNat)) init =
        Nat.ofDigitChars 10 l init := by
    intro l
    induction l with
    | nil => intro init _; rfl
    | cons c l ih =>
      intro init hl
      have hzero : (ch '0').toNat = '0'.toNat := rfl
      rw [map_cons, foldl_cons, ih _ fun d hd => hl d (mem_cons_of_mem _ hd), Nat.ofDigitChars_cons,
        (toNat_digit (hl c mem_cons_self)).1, hzero]
  rw [uintText, lit, Nat.toString_eq_repr, Nat.toList_repr,
    hdigits _ 0 fun c hc => Nat.isDigit_of_mem_toDigits (by decide) (by decide) hc, Nat.ofDigitChars_ten_toDigits]

theorem decimal_uintText (n : ℕ) : decimal (uintText n) = n := by
  have hzero : (ch '0').toNat = 48 := rfl
  refine Eq.trans ?_ (foldl_uintText n)
  rw [decimal, hzero]
  congr 1
  funext n c
  rw [Nat.mul_comm]

theorem digits_uintText (n : ℕ) : digits (uintText n) = uintText n :=
  takeWhile_eq_self_iff.2 fun _ hb => isdigit_uintText hb

theorem strtoul_uintText {n : ℕ} (h : n < 2 ^ 64) : strtoul (uintText n) = UInt64.ofNat n := by
  have hcstr : cStr (uintText n) = uintText n := cStr_eq_self (not_mem_uintText (by decide) n)
  have hhead : ∀ b : UInt8, isdigit b = false → (uintText n).head? ≠ some b := fun b hb hh =>
    not_mem_uintText hb n (mem_of_mem_head? hh)
  have hspace : (uintText n).dropWhile isspace = uintText n := by
    cases htext : uintText n with
    | nil => rfl
    | cons c s =>
      have hc : c ∈ uintText n := htext ▸ mem_cons_self
      refine dropWhile_cons_of_neg fun hsp => ?_
      obtain ⟨h1, h2⟩ := mem_uintText hc
      have hbytes : (0x20 : UInt8).toNat = 32 ∧ (0x0D : UInt8).toNat = 13 := ⟨rfl, rfl⟩
      simp only [isspace, Bool.or_eq_true, Bool.and_eq_true, decide_eq_true_eq, UInt8.le_iff_toNat_le] at hsp
      rcases hsp with rfl | hsp
      · omega
      · omega
  have hall : (uintText n).takeWhile isdigit = uintText n :=
    takeWhile_eq_self_iff.2 fun b hb => isdigit_uintText hb
  have hsign : ((uintText n).head? = some (ch '-')) = False ∧ ((uintText n).head? = some (ch '+')) = False :=
    ⟨eq_false (hhead _ (by decide)), eq_false (hhead _ (by decide))⟩
  unfold strtoul
  simp only [hcstr, hspace, hsign.1, hsign.2, decide_false, Bool.or_self, Bool.false_eq_true, if_false, hall,
    foldl_uintText]
  rw [if_neg (by omega)]

theorem toUShort_uintText (u : UInt16) : toUShort (uintText u.toNat) = u := by
  have hu := u.toNat_lt
  apply UInt16.toNat_inj.1
  calc (toUShort (uintText u.toNat)).toNat = (UInt64.ofNat u.toNat).toUInt16.toNat := by
        rw [toUShort, strtoul_uintText (by omega)]
    _ = u.toNat % 2 ^ 64 % 2 ^ 16 := by rw [UInt64.toNat_toUInt16, UInt64.toNat_ofNat']
    _ = u.toNat := by omega

/-! ## Ends and words -/

/-- without blanks at its ends -/
structure Clean (s : CString) : Prop where
  first : ∀ c ∈ s.head?, c ∉ blanks
  last : ∀ c ∈ s.getLast?, c ∉ blanks

theorem Clean.trim_eq {s : CString} (h : Clean s) : trim s = s := by
  by_cases hne : s = []
  · rw [hne]
    rfl
  · have htrim := @trim_append s [] hne h.first h.last fun c hc => nomatch hc
    rwa [append_nil] at htrim

variable {w sName : CString} (s : CString) {sPass : CString} (bSSL : Bool) (uPort : UInt16)

theorem clean_trim : Clean (trim s) := by
  have hdrop : ∀ t : CString, ∀ c ∈ (t.dropWhile fun c => decide (c ∈ blanks)).head?, c ∉ blanks := by
    intro t c hc
    have hnot := head?_dropWhile_not (fun c => decide (c ∈ blanks)) t
    rw [Option.mem_def.1 hc] at hnot
    simpa using hnot
  constructor
  · intro c hc
    have hpre : trim s <+: s.trimLeft blanks := by
      rw [trim, trimRight_n, ← reverse_suffix, reverse_reverse]
      exact dropWhile_suffix _
    obtain ⟨r, hr⟩ := hpre
    refine hdrop s c ?_
    have hhead : (s.trimLeft blanks).head? = some c := by
      rw [← hr, head?_append, Option.mem_def.1 hc]
      rfl
    exact hhead
  · intro c hc
    rw [trim, trimRight_n, getLast?_reverse] at hc
    exact hdrop _ c hc

theorem last_of_suffix {x s : CString} (h : x <:+ s) (hs : ∀ c ∈ s.getLast?, c ∉ blanks) :
    ∀ c ∈ x.getLast?, c ∉ blanks := by
  obtain ⟨p, rfl⟩ := h
  intro c hc
  refine hs c ?_
  have hne : x ≠ [] := by
    rintro rfl
    exact Option.some_ne_none c (Option.mem_def.1 hc).symm
  rwa [getLast?_append_of_ne_nil _ hne]

theorem word_spec {x : CString} (hhead : x.head? ≠ some (ch ' ')) (hlast : ∀ c ∈ x.getLast?, c ∉ blanks) :
    ch ' ' ∉ (word (ch ' ') x).1 ∧ (word (ch ' ') x).2.head? ≠ some (ch ' ') ∧
      (∀ c ∈ (word (ch ' ') x).2.getLast?, c ∉ blanks) ∧
      ((word (ch ' ') x).2 = [] → (word (ch ' ') x).1 = x) ∧ ((word (ch ' ') x).1 = [] → x = []) := by
  have hcut : x.takeWhile (· ≠ ch ' ') ++ x.dropWhile (· ≠ ch ' ') = x := takeWhile_append_dropWhile
  refine ⟨fun h => ?_, head_word (ch ' ') x, ?_, fun h => ?_, fun h => ?_⟩
  · have hne := mem_takeWhile_imp h
    exact of_decide_eq_true hne rfl
  · exact last_of_suffix ((dropWhile_suffix _).trans (dropWhile_suffix _)) hlast
  · have hspaces := dropWhile_eq_nil_iff.1 h
    have hnil : x.dropWhile (· ≠ ch ' ') = [] := by
      by_contra hne
      have hmem := getLast_mem hne
      have hspace : (x.dropWhile (· ≠ ch ' ')).getLast hne = ch ' ' := of_decide_eq_true (hspaces _ hmem)
      have hblank := last_of_suffix (dropWhile_suffix (· ≠ ch ' ')) hlast _ (getLast?_eq_some_getLast hne)
      rw [hspace] at hblank
      exact hblank (by decide)
    rw [hnil, append_nil] at hcut
    exact hcut
  · cases x with
    | nil => rfl
    | cons c x =>
      have hc : c ≠ ch ' ' := fun hc => hhead (by rw [hc]; rfl)
      rw [word, takeWhile_cons_of_pos (by simpa using hc)] at h
      exact absurd h (cons_ne_nil _ _)

theorem startsWith_word (h0 : (0 : UInt8) ∉ w) (hsp : ch ' ' ∉ w) (x : CString) :
    x.startsWith w = (startsWith (word (ch ' ') x).1 w) := by
  rw [Bool.eq_iff_iff, startsWith_iff h0, startsWith_iff h0]
  have hword : (word (ch ' ') x).1 <+: x := takeWhile_prefix _
  constructor
  · intro h
    have htake : x.asLower.take w.length = w.asLower := by
      have hlen : w.asLower.length = w.length := length_map _
      rw [← hlen]
      exact (prefix_iff_eq_take.1 h).symm
    have hno : ∀ c ∈ x.take w.length, decide (c ≠ ch ' ') = true := by
      intro c hc
      refine decide_eq_true fun hspace => hsp ?_
      have hlower : tolower c ∈ w.asLower := by
        rw [← htake, asLower, ← map_take]
        exact mem_map_of_mem hc
      obtain ⟨b, hb, hbc⟩ := mem_map.1 hlower
      have hlow : tolower (ch ' ') = ch ' ' := by decide
      rw [hspace, hlow, tolower_eq_iff (by decide)] at hbc
      exact hbc ▸ hb
    have hsplit : (word (ch ' ') x).1 = x.take w.length ++ (x.drop w.length).takeWhile (· ≠ ch ' ') := calc
      (word (ch ' ') x).1 = (x.take w.length ++ x.drop w.length).takeWhile (· ≠ ch ' ') := by
        rw [take_append_drop]
        rfl
      _ = x.take w.length ++ (x.drop w.length).takeWhile (· ≠ ch ' ') := takeWhile_append_of_pos hno
    have hpre : x.take w.length <+: (word (ch ' ') x).1 := by
      rw [hsplit]
      exact prefix_append _ _
    have hmap := hpre.map tolower
    rwa [map_take, ← asLower, htake] at hmap
  · exact fun h => h.trans (hword.map tolower)

theorem startsWith_append (h0 : (0 : UInt8) ∉ w) (s : CString) :
    startsWith (w ++ s) w = true := by
  rw [startsWith_iff h0, asLower, asLower, map_append]
  exact prefix_append _ _

theorem trimPrefix_append (h0 : (0 : UInt8) ∉ w) (s : CString) : trimPrefix_n (w ++ s) w = s := by
  rw [trimPrefix_n, if_pos (startsWith_append h0 s), drop_left]

/-! ## Tokens -/

theorem dropWhile_space {s : CString} (h : s.head? ≠ some (ch ' ')) : s.dropWhile (· = ch ' ') = s := by
  cases s with
  | nil => rfl
  | cons c s => exact dropWhile_cons_of_neg fun hc => h (by rw [of_decide_eq_true hc]; rfl)

theorem token_words :
    s.token 0 false (ch ' ') false = (word (ch ' ') (s.dropWhile (· = ch ' '))).1 ∧
      s.token 1 false (ch ' ') false = (word (ch ' ') (word (ch ' ') (s.dropWhile (· = ch ' '))).2).1 ∧
      s.token 1 true (ch ' ') false = (word (ch ' ') (s.dropWhile (· = ch ' '))).2 ∧
      s.token 2 true (ch ' ') false = (word (ch ' ') (word (ch ' ') (s.dropWhile (· = ch ' '))).2).2 := by
  simp only [token, Bool.false_eq_true, if_false, if_true, skipTokens_word, skipTokens]
  exact ⟨rfl, rfl, trivial, trivial⟩

/-- a password behind a word, if there is one -/
def passText (sPass : CString) : CString := if sPass ≠ [] then lit " " ++ sPass else []

theorem word_passText (hw : ch ' ' ∉ w) (hpass : sPass.head? ≠ some (ch ' ')) :
    word (ch ' ') (w ++ passText sPass) = (w, sPass) := by
  unfold passText
  split_ifs with hne
  · exact word_append hw hpass
  · rw [not_not.1 hne, append_nil]
    exact word_of_not_mem hw

theorem last_passText {s : CString} (hs : sPass = [] → ∀ c ∈ s.getLast?, c ∉ blanks)
    (hpass : ∀ c ∈ sPass.getLast?, c ∉ blanks) : ∀ c ∈ (s ++ passText sPass).getLast?, c ∉ blanks := by
  unfold passText
  split_ifs with hne
  · rw [← append_assoc, getLast?_append_of_ne_nil _ hne]
    exact hpass
  · rw [append_nil]
    exact hs (not_not.1 hne)

/-! ## Printing and reading -/

theorem getString_unix (sName sPass : CString) (uPort : UInt16) (bSSL : Bool) :
    getString ⟨sName, uPort, sPass, bSSL, true⟩ true =
      lit "unix:" ++ ((if bSSL then lit "ssl:" else []) ++ (sName ++ passText sPass)) := by
  simp [getString, passText]

theorem getString_tcp (sName sPass : CString) (uPort : UInt16) (bSSL : Bool) :
    getString ⟨sName, uPort, sPass, bSSL, false⟩ true =
      sName ++ ch ' ' :: ((if bSSL then lit "+" else []) ++ uintText uPort.toNat ++ passText sPass) := by
  have hspace : lit " " = [ch ' '] := rfl
  simp [getString, passText, hspace]

/-- what is read behind `unix:` -/
def parseUnix (sLine : CString) : CServer :=
  .new ((sLine.trimPrefix_n (lit "ssl:")).token 0 false (ch ' ') false) 0
    ((sLine.trimPrefix_n (lit "ssl:")).token 1 true (ch ' ') false) (sLine.startsWith (lit "ssl:")) true

theorem parse_unix {sLine : CString} (h : startsWith (trim sLine) (lit "unix:") = true) :
    CServer.parse sLine = parseUnix (trimPrefix_n (trim sLine) (lit "unix:")) := by
  unfold CServer.parse
  simp only
  rw [if_pos h]
  rfl

theorem clean_unix (hlast : sPass = [] → ∀ c ∈ sName.getLast?, c ∉ blanks)
    (hlastPass : ∀ c ∈ sPass.getLast?, c ∉ blanks) (bSSL : Bool) (uPort : UInt16) :
    Clean (getString ⟨sName, uPort, sPass, bSSL, true⟩ true) := by
  rw [getString_unix, ← append_assoc]
  have hfirst : ∀ c ∈ (lit "unix:").head?, c ∉ blanks := by decide +kernel
  refine ⟨fun c hc => ?_, fun c hc => ?_⟩
  · rw [append_assoc, head?_append_of_ne_nil _ (by decide)] at hc
    exact hfirst c hc
  · by_cases hnil : sName ++ passText sPass = []
    · rw [hnil, append_nil] at hc
      have hcolon : ∀ c ∈ (lit "unix:" ++ if bSSL = true then lit "ssl:" else []).getLast?, c ∉ blanks := by
        cases bSSL <;> decide +kernel
      exact hcolon c hc
    · rw [getLast?_append_of_ne_nil _ hnil] at hc
      exact last_passText hlast hlastPass c hc

/-- **A path and a password behind `unix:`** are read back, and so is the SSL flag unless the path begins with `ssl:`. -/
theorem parse_unixText (hname : ch ' ' ∉ sName) (hpass : sPass.head? ≠ some (ch ' ')) (hempty : sName = [] → sPass = [])
    (hlast : sPass = [] → ∀ c ∈ sName.getLast?, c ∉ blanks) (hlastPass : ∀ c ∈ sPass.getLast?, c ∉ blanks)
    (uPort : UInt16) :
    CServer.parse (getString ⟨sName, uPort, sPass, bSSL, true⟩ true) = ⟨sName, 6667, sPass, bSSL, true⟩ ↔
      bSSL = true ∨ startsWith sName (lit "ssl:") = false := by
  set s := sName ++ passText sPass with hs
  have hnul : (0 : UInt8) ∉ lit "unix:" ∧ (0 : UInt8) ∉ lit "ssl:" := by decide
  have hwords : word (ch ' ') s = (sName, sPass) := word_passText hname hpass
  have hssl : startsWith s (lit "ssl:") = startsWith sName (lit "ssl:") := by
    rw [startsWith_word hnul.2 (by decide), hwords]
  have hclean := clean_unix hlast hlastPass bSSL uPort
  have hread : CServer.parse (getString ⟨sName, uPort, sPass, bSSL, true⟩ true) =
      parseUnix ((if bSSL then lit "ssl:" else []) ++ s) := by
    rw [parse_unix, hclean.trim_eq, getString_unix, trimPrefix_append hnul.1]
    rw [hclean.trim_eq, getString_unix]
    exact startsWith_append hnul.1 _
  have hhead : s.head? ≠ some (ch ' ') := by
    intro h
    cases hcons : sName with
    | nil =>
      rw [hs, hcons, hempty hcons] at h
      exact absurd h (by decide)
    | cons c t =>
      rw [hs, hcons] at h
      rw [hcons] at hname
      exact hname (Option.some_inj.1 h ▸ mem_cons_self)
  have htokens : token s 0 false (ch ' ') false = sName ∧ token s 1 true (ch ' ') false = sPass := by
    obtain ⟨hzero, -, hone, -⟩ := token_words s
    rw [hzero, hone, dropWhile_space hhead, hwords]
    exact ⟨rfl, rfl⟩
  rw [hread]
  cases bSSL with
  | true =>
    rw [if_pos rfl, parseUnix, trimPrefix_append hnul.2, startsWith_append hnul.2, htokens.1, htokens.2]
    exact iff_of_true rfl (.inl rfl)
  | false =>
    rw [if_neg Bool.false_ne_true, nil_append, parseUnix, hssl]
    cases hcase : startsWith sName (lit "ssl:") with
    | true =>
      refine iff_of_false (fun h => ?_) (fun h => h.elim Bool.false_ne_true fun h => Bool.false_ne_true h.symm)
      exact Bool.false_ne_true (congrArg CServer.bSSL h).symm
    | false =>
      have htrim : trimPrefix_n s (lit "ssl:") = s := by
        rw [trimPrefix_n, hssl, hcase, if_neg Bool.false_ne_true]
      rw [htrim, htokens.1, htokens.2]
      exact iff_of_true rfl (.inr rfl)

/-- the port with the plus sign of SSL in front -/
def portText (bSSL : Bool) (uPort : UInt16) : CString := (if bSSL then lit "+" else []) ++ uintText uPort.toNat

theorem portText_ne : portText bSSL uPort ≠ [] :=
  append_ne_nil_of_right_ne_nil _ (uintText_ne _)

theorem space_not_mem_portText : ch ' ' ∉ portText bSSL uPort := by
  intro h
  rcases mem_append.1 h with h | h
  · cases bSSL with
    | true => exact absurd h (by decide)
    | false => exact nomatch h
  · exact not_mem_uintText (by decide) _ h

theorem portText_read :
    startsWith (portText bSSL uPort) (lit "+") = bSSL ∧
      trimPrefix_n (portText bSSL uPort) (lit "+") = uintText uPort.toNat := by
  have hplus : (0 : UInt8) ∉ lit "+" := by decide
  cases bSSL with
  | true => exact ⟨startsWith_append hplus _, trimPrefix_append hplus _⟩
  | false =>
    have hno : startsWith (uintText uPort.toNat) (lit "+") = false := by
      rw [← Bool.not_eq_true]
      intro h
      have hmem := head_of_startsWith (c := ch '+') (by decide) (by decide) h
      exact not_mem_uintText (b := ch '+') (by decide) _ (mem_of_mem_head? hmem)
    rw [portText, if_neg Bool.false_ne_true, nil_append]
    exact ⟨hno, by rw [trimPrefix_n, hno, if_neg Bool.false_ne_true]⟩

theorem clean_tcp (hne : sName ≠ []) (hfirst : ∀ c ∈ sName.head?, c ∉ blanks)
    (hlastPass : ∀ c ∈ sPass.getLast?, c ∉ blanks) (bSSL : Bool) (uPort : UInt16) :
    Clean (sName ++ ch ' ' :: (portText bSSL uPort ++ passText sPass)) := by
  refine ⟨fun c hc => ?_, ?_⟩
  · rw [head?_append_of_ne_nil _ hne] at hc
    exact hfirst c hc
  · have hassoc : sName ++ ch ' ' :: (portText bSSL uPort ++ passText sPass) =
        (sName ++ ch ' ' :: portText bSSL uPort) ++ passText sPass := by simp
    rw [hassoc]
    refine last_passText (fun _ c hc => ?_) hlastPass
    rw [getLast?_append_of_ne_nil _ (cons_ne_nil _ _), getLast?_cons_of_ne_nil (portText_ne _ _),
      portText, getLast?_append_of_ne_nil _ (uintText_ne _)] at hc
    obtain ⟨h1, h2⟩ := mem_uintText (mem_of_getLast? hc)
    have hblanks : ∀ b ∈ blanks, b.toNat < 48 := by decide +kernel
    exact fun hb => absurd (hblanks c hb) (by omega)

/-- **A host, a port and a password** are read back. -/
theorem parse_tcpText {uPort : UInt16} (hne : sName ≠ []) (hname : ch ' ' ∉ sName)
    (hfirst : ∀ c ∈ sName.head?, c ∉ blanks) (hunix : startsWith sName (lit "unix:") = false)
    (hport : uPort ≠ 0) (hpass : sPass.head? ≠ some (ch ' ')) (hlastPass : ∀ c ∈ sPass.getLast?, c ∉ blanks) :
    CServer.parse (getString ⟨sName, uPort, sPass, bSSL, false⟩ true) = ⟨sName, uPort, sPass, bSSL, false⟩ := by
  set sPort := portText bSSL uPort
  have hspace : ch ' ' ∉ sPort := space_not_mem_portText bSSL uPort
  have htext : getString ⟨sName, uPort, sPass, bSSL, false⟩ true = sName ++ ch ' ' :: (sPort ++ passText sPass) :=
    getString_tcp sName sPass uPort bSSL
  have hhead : (sPort ++ passText sPass).head? ≠ some (ch ' ') := by
    rw [head?_append_of_ne_nil _ (portText_ne bSSL uPort)]
    exact fun h => hspace (mem_of_mem_head? h)
  have hwords : word (ch ' ') (sName ++ ch ' ' :: (sPort ++ passText sPass)) = (sName, sPort ++ passText sPass) :=
    word_append hname hhead
  have hclean : Clean (sName ++ ch ' ' :: (sPort ++ passText sPass)) := clean_tcp hne hfirst hlastPass bSSL uPort
  have hstart : (sName ++ ch ' ' :: (sPort ++ passText sPass)).head? ≠ some (ch ' ') := by
    rw [head?_append_of_ne_nil _ hne]
    exact fun h => hname (mem_of_mem_head? h)
  obtain ⟨hssl, hdigits⟩ := portText_read bSSL uPort
  have hnounix : startsWith (sName ++ ch ' ' :: (sPort ++ passText sPass)) (lit "unix:") = false := by
    rw [startsWith_word (by decide) (by decide), hwords]
    exact hunix
  obtain ⟨hzero, hone, -, htwo⟩ := token_words (sName ++ ch ' ' :: (sPort ++ passText sPass))
  rw [dropWhile_space hstart, hwords] at hzero hone htwo
  rw [word_passText hspace hpass] at hone htwo
  unfold CServer.parse
  simp only
  rw [htext, hclean.trim_eq, hnounix, if_neg Bool.false_ne_true, hzero, hone, htwo, hssl, hdigits, toUShort_uintText,
    CServer.new, if_neg hport]

/-! ## The round trip -/

/-- the lines whose server is read back: of a socket, unless spaces and `ssl:` follow `unix:`, and of a host, if there is one -/
def KeepsServer (sLine : CString) : Prop :=
  if startsWith (trim sLine) (lit "unix:") then
    ¬((trimPrefix_n (trim sLine) (lit "unix:")).head? = some (ch ' ') ∧
      startsWith ((trimPrefix_n (trim sLine) (lit "unix:")).dropWhile (· = ch ' ')) (lit "ssl:"))
  else trim sLine ≠ []

instance (sLine : CString) : Decidable (KeepsServer sLine) := inferInstanceAs (Decidable (ite _ _ _))

theorem trimPrefix_suffix (w : CString) : trimPrefix_n s w <:+ s := by
  rw [trimPrefix_n]
  split_ifs
  · exact drop_suffix _ _
  · exact suffix_rfl

theorem head_dropWhile_space : (s.dropWhile (· = ch ' ')).head? ≠ some (ch ' ') := by
  intro h
  have hnot := head?_dropWhile_not (fun c => decide (c = ch ' ')) s
  rw [h] at hnot
  simp at hnot

theorem parseUnix_round_trip_iff {r : CString} (hlast : ∀ c ∈ r.getLast?, c ∉ blanks) :
    CServer.parse (getString (parseUnix r) true) = parseUnix r ↔
      ¬(r.head? = some (ch ' ') ∧ startsWith (r.dropWhile (· = ch ' ')) (lit "ssl:")) := by
  have hnul : (0 : UInt8) ∉ lit "ssl:" := by decide
  set x := (trimPrefix_n r (lit "ssl:")).dropWhile (· = ch ' ') with hx
  have hxlast : ∀ c ∈ x.getLast?, c ∉ blanks :=
    last_of_suffix ((dropWhile_suffix _).trans (trimPrefix_suffix r _)) hlast
  have hxhead : x.head? ≠ some (ch ' ') := head_dropWhile_space _
  obtain ⟨hname, hpass, hlastPass, hwhole, hempty⟩ := word_spec hxhead hxlast
  have hparse : parseUnix r =
      ⟨(word (ch ' ') x).1, 6667, (word (ch ' ') x).2, startsWith r (lit "ssl:"), true⟩ := by
    obtain ⟨hzero, -, hone, -⟩ := token_words (trimPrefix_n r (lit "ssl:"))
    rw [parseUnix, hzero, hone]
    rfl
  rw [hparse, parse_unixText _ hname hpass (fun h => by rw [hempty h]; rfl) (fun h => by rw [hwhole h]; exact hxlast)
    hlastPass]
  cases hssl : startsWith r (lit "ssl:") with
  | true =>
    refine iff_of_true (.inl rfl) fun h => ?_
    rw [startsWith_word hnul (by decide)] at hssl
    obtain ⟨t, rfl⟩ : ∃ t, r = ch ' ' :: t := ⟨r.tail, (cons_head?_tail h.1).symm⟩
    have hnone : (word (ch ' ') (ch ' ' :: t)).1 = [] := by rw [word, takeWhile_cons_of_neg (by simp)]
    rw [hnone] at hssl
    exact absurd hssl (by decide)
  | false =>
    have hself : trimPrefix_n r (lit "ssl:") = r := by rw [trimPrefix_n, hssl, if_neg Bool.false_ne_true]
    rw [hself] at hx
    rw [← startsWith_word hnul (by decide), ← hx]
    constructor
    · rintro (h | h) ⟨-, hstart⟩
      · exact Bool.false_ne_true h
      · exact Bool.false_ne_true (h.symm.trans hstart)
    · intro h
      by_cases hspace : r.head? = some (ch ' ')
      · exact .inr (Bool.eq_false_iff.2 fun hstart => h ⟨hspace, hstart⟩)
      · rw [hx, dropWhile_space hspace]
        exact .inr hssl

theorem parse_tcp_round_trip {sLine : CString} (hunix : startsWith (trim sLine) (lit "unix:") = false)
    (hne : trim sLine ≠ []) :
    CServer.parse (getString (CServer.parse sLine) true) = CServer.parse sLine := by
  have hclean := clean_trim sLine
  set t := trim sLine with ht
  have hhead : t.head? ≠ some (ch ' ') := fun h => hclean.first _ h (by decide)
  obtain ⟨hname, hqhead, hqlast, -, hempty⟩ := word_spec hhead hclean.last
  obtain ⟨-, hpass, hlastPass, -, -⟩ := word_spec hqhead hqlast
  have hwne : (word (ch ' ') t).1 ≠ [] := fun h => hne (hempty h)
  have hfirst : ∀ c ∈ (word (ch ' ') t).1.head?, c ∉ blanks := by
    have hpre : (word (ch ' ') t).1 <+: t := takeWhile_prefix _
    obtain ⟨r, hr⟩ := hpre
    intro c hc
    refine hclean.first c ?_
    rwa [← hr, head?_append_of_ne_nil _ hwne]
  have hnounix : startsWith (word (ch ' ') t).1 (lit "unix:") = false := by
    rw [← startsWith_word (by decide) (by decide)]
    exact hunix
  have hparse : ∃ uPort bSSL, uPort ≠ 0 ∧ CServer.parse sLine =
      ⟨(word (ch ' ') t).1, uPort, (word (ch ' ') (word (ch ' ') t).2).2, bSSL, false⟩ := by
    obtain ⟨hzero, hone, -, htwo⟩ := token_words t
    rw [dropWhile_space hhead] at hzero htwo
    unfold CServer.parse
    simp only
    rw [← ht, hunix, if_neg Bool.false_ne_true, hzero, htwo]
    refine ⟨_, _, ?_, rfl⟩
    split_ifs with hzeroPort
    · decide
    · exact hzeroPort
  obtain ⟨uPort, bSSL, hport, hparse⟩ := hparse
  rw [hparse]
  exact parse_tcpText bSSL hwne hname hfirst hnounix hport hpass hlastPass

/-- **The line of a server is read back as the server,** exactly for these lines. -/
theorem server_round_trip_iff (sLine : CString) :
    CServer.parse (getString (CServer.parse sLine) true) = CServer.parse sLine ↔ KeepsServer sLine := by
  have hclean := clean_trim sLine
  unfold KeepsServer
  cases hunix : startsWith (trim sLine) (lit "unix:") with
  | true =>
    rw [if_pos rfl, parse_unix hunix]
    exact parseUnix_round_trip_iff (last_of_suffix (trimPrefix_suffix _ _) hclean.last)
  | false =>
    rw [if_neg Bool.false_ne_true]
    by_cases hne : trim sLine = []
    · -- a blank line is printed as the default port alone, which is read as a host
      have hblank : CServer.parse sLine = ⟨[], 6667, [], false, false⟩ := by
        unfold CServer.parse
        simp only
        rw [hne]
        decide
      rw [hblank]
      exact iff_of_false (by decide) fun h => h hne
    · exact iff_of_true (parse_tcp_round_trip hunix hne) hne

/-- a path that begins with `ssl:`, behind a space: it is read back as a path with SSL -/
theorem server_round_trip_fails :
    ¬ ∀ sLine : CString, CServer.parse (getString (CServer.parse sLine) true) = CServer.parse sLine := by
  intro h
  have hpath : CServer.parse (lit "unix: ssl:/p") = ⟨lit "ssl:/p", 6667, [], false, true⟩ := by decide
  have hagain : CServer.parse (getString ⟨lit "ssl:/p", 6667, [], false, true⟩ true) =
    ⟨lit "/p", 6667, [], true, true⟩ := by
    decide
  have hsame := h (lit "unix: ssl:/p")
  rw [hpath, hagain] at hsame
  exact absurd hsame (by decide)

end ZNC
