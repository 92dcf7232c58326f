/-
Whether a server's certificate is for its host: `hostmatch`, `matches_common_name`, `matches_subject_alternative_name` and
`validate_hostname` of `src/SSLVerifyHost.cpp`, and what `CZNCSock` of `src/Socket.cpp` makes of it.

Model: `char*` parameters are what stands before the terminator, pointers into a text are what stands from there on. What
OpenSSL reads from the certificate is a field of it, `inet_pton` a parameter. `ENABLE_IPV6` is not defined, the test that is
behind it is left out.

Results:
- `hostcheck_iff`: which hosts a name in a certificate is for;
- `verifyHost_iff`: which of the names are looked at;
- `handshake_iff`: when a connection is kept.
-/
import ZNC.EscapeRoundTrip
import ZNC.Lib.Paths

namespace ZNC.SSLVerifyHost

open CString List

/-! ## Texts without regard to case -/

/-- the switch: the small letters of ASCII -/
def Curl_raw_toupper (c : UInt8) : UInt8 := toupper c

/-- both pointers move on while the letters are the same -/
def Curl_raw_equal : CString → CString → Bool
  | a :: first, b :: second =>
    if Curl_raw_toupper a ≠ Curl_raw_toupper b then Curl_raw_toupper a == Curl_raw_toupper b
    else Curl_raw_equal first second
  | first, second => Curl_raw_toupper (first.deref 0) == Curl_raw_toupper (second.deref 0)

def Curl_raw_nequal : CString → CString → ℕ → Bool
  | a :: first, b :: second, max + 1 =>
    if Curl_raw_toupper a ≠ Curl_raw_toupper b then Curl_raw_toupper a == Curl_raw_toupper b
    else Curl_raw_nequal first second max
  | _, _, 0 => true
  | first, second, _ => Curl_raw_toupper (first.deref 0) == Curl_raw_toupper (second.deref 0)

def strchr (p : CString) (c : UInt8) : Option CString :=
  match p.dropWhile (· ≠ c) with
  | [] => none
  | q => some q

/-! ## The match -/

inductive Family where
  | AF_INET
  | AF_INET6
deriving DecidableEq

/-- the bytes of an address, for a text that is one -/
abbrev InetPton := Family → CString → Option CString

/-- "stripping off trailing dots" -/
def stripDot (s : CString) : CString := if s.getLast? = some (ch '.') then s.dropLast else s

def hostmatch (inet_pton : InetPton) (hostname pattern : CString) : Bool :=
  let hostname := stripDot hostname
  let pattern := stripDot pattern
  match strchr pattern (ch '*') with
  | none => Curl_raw_equal pattern hostname
  | some pattern_wildcard =>
    if (inet_pton .AF_INET hostname).isSome then false
    else
      match strchr pattern (ch '.') with
      | none => Curl_raw_equal pattern hostname
      | some pattern_label_end =>
        if strchr (pattern_label_end.drop 1) (ch '.') = none ∨
            -- the star is behind the first label
            pattern_wildcard.length < pattern_label_end.length ∨ Curl_raw_nequal pattern (lit "xn--") 4 then
          Curl_raw_equal pattern hostname
        else
          match strchr hostname (ch '.') with
          | none => false
          | some hostname_label_end =>
            if !Curl_raw_equal pattern_label_end hostname_label_end then false
            else if hostname.length - hostname_label_end.length < pattern.length - pattern_label_end.length then false
            else
              let prefixlen := pattern.length - pattern_wildcard.length
              let suffixlen := pattern_wildcard.length - 1 - pattern_label_end.length
              Curl_raw_nequal pattern hostname prefixlen &&
                Curl_raw_nequal (pattern_wildcard.drop 1)
                  (hostname.drop (hostname.length - hostname_label_end.length - suffixlen)) suffixlen

def Curl_cert_hostcheck (inet_pton : InetPton) (match_pattern hostname : CString) : Bool :=
  match_pattern ≠ [] && hostname ≠ [] && hostmatch inet_pton hostname match_pattern

/-! ## The certificate -/

inductive GENERAL_NAME where
  | GEN_DNS (dNSName : CString)
  | GEN_IPADD (iPAddress : CString)
  | other

structure X509 where
  /-- the names of the extension, if the certificate has it -/
  subject_alt_name : Option (List GENERAL_NAME)
  /-- the first common name, if it can be extracted -/
  commonName : Option CString
  /-- `X509_digest` with `EVP_sha256` -/
  digest : Option CString

inductive HostnameValidationResult where
  | MatchFound
  | MatchNotFound
  | NoSANPresent
  | MalformedCertificate
  | Error
deriving DecidableEq

section Functions

variable (inet_pton : InetPton) (hostname : CString)

def matches_common_name (server_cert : X509) : HostnameValidationResult :=
  match server_cert.commonName with
  | none => .Error
  | some common_name =>
    if common_name.length ≠ common_name.cStr.length then .MalformedCertificate
    else if Curl_cert_hostcheck inet_pton common_name.cStr hostname then .MatchFound else .MatchNotFound

/-- the loop over the names -/
def matchNames : List GENERAL_NAME → HostnameValidationResult
  | [] => .MatchNotFound
  | .GEN_DNS dNSName :: names =>
    if dNSName.length ≠ dNSName.cStr.length then .MalformedCertificate
    else if Curl_cert_hostcheck inet_pton dNSName.cStr hostname then .MatchFound else matchNames names
  | .GEN_IPADD iPAddress :: names =>
    let ip4try := inet_pton .AF_INET hostname
    let ip6try := inet_pton .AF_INET6 hostname
    let ip :=
      if ip4try.isSome && iPAddress.length = 4 then ip4try
      else if ip6try.isSome && iPAddress.length = 16 then ip6try
      else none
    if ip = some iPAddress then .MatchFound else matchNames names
  | .other :: names => matchNames names

def matches_subject_alternative_name (server_cert : X509) : HostnameValidationResult :=
  match server_cert.subject_alt_name with
  | none => .NoSANPresent
  | some san_names => matchNames inet_pton hostname san_names

def validate_hostname (server_cert : X509) : HostnameValidationResult :=
  match matches_subject_alternative_name inet_pton hostname server_cert with
  | .NoSANPresent => matches_common_name inet_pton hostname server_cert
  | result => result

end Functions

/-- the error, if the certificate is not for the host -/
def ZNC_SSLVerifyHost (inet_pton : InetPton) (sHost : CString) (pCert : X509) : Option CString :=
  match validate_hostname inet_pton sHost.cStr pCert with
  | .MatchFound => none
  | .MatchNotFound => some (lit "hostname doesn't match")
  | .MalformedCertificate => some (lit "malformed hostname in certificate")
  | _ => some (lit "hostname verification error")

/-! ## The connection -/

structure CZNCSock where
  bOutbound : Bool
  sHostToVerifySSL : CString
  ssTrustedFingerprints : SCString
  ssCertVerificationErrors : SCString
  bTrustAllCerts : Bool
  bTrustPKI : Bool

namespace CZNCSock

/-- a socket before its handshake -/
def new (bOutbound : Bool) (sHost : CString) (ssFPs : SCString) (bTrustAllCerts bTrustPKI : Bool) : CZNCSock :=
  ⟨bOutbound, sHost, ssFPs, .empty, bTrustAllCerts, bTrustPKI⟩

/-- `sError`: what `X509_verify_cert_error_string` has for the error -/
def verifyPeerCertificate (s : CZNCSock) (iPreVerify : ℤ) (sError : CString) : CZNCSock :=
  if iPreVerify = 0 then { s with ssCertVerificationErrors := s.ssCertVerificationErrors.insert sError } else s

def getSSLPeerFingerprint (pCert : X509) : CString :=
  match pCert.digest with
  | none => []
  | some buf => (buf.escape_n .EASCII .EHEXCOLON).getD []

/-- the error the socket is closed with, if the check fails -/
def checkSSLCert (s : CZNCSock) (inet_pton : InetPton) (pCert : Option X509) : Option CString :=
  if s.bOutbound = false then none
  else
    match pCert with
    | none => some (lit "Anonymous SSL cert is not allowed")
    | some pCert =>
      if s.bTrustAllCerts then none
      else
        let ssErrors :=
          match ZNC_SSLVerifyHost inet_pton s.sHostToVerifySSL pCert with
          | none => s.ssCertVerificationErrors
          | some sHostVerifyError => s.ssCertVerificationErrors.insert sHostVerifyError
        if s.bTrustPKI && ssErrors.isEmpty then none
        else if getSSLPeerFingerprint pCert ∈ s.ssTrustedFingerprints then none
        else some (lit "Invalid SSL certificate: " ++ CString.join (lit ", ") ssErrors.toList)

/-- the certificates of the chain are looked at one after the other, then the handshake is finished -/
def handshake (s : CZNCSock) (inet_pton : InetPton) (chain : List (ℤ × CString)) (pCert : Option X509) :
    Option CString :=
  (chain.foldl (fun s c => s.verifyPeerCertificate c.1 c.2) s).checkSSLCert inet_pton pCert

end CZNCSock

/-! ## Which hosts a name is for -/

/-- letter case does not count -/
def Same (s t : CString) : Prop := s.asUpper = t.asUpper

/-- the labels of a pattern: its first one has a star, there are two dots behind it, and it is no `xn--` label -/
structure Stars (pattern sLeft sRight sRest : CString) : Prop where
  eq : pattern = sLeft ++ ch '*' :: (sRight ++ ch '.' :: sRest)
  first : ch '*' ∉ sLeft
  label : ch '.' ∉ sLeft ++ sRight
  dots : ch '.' ∈ sRest
  plain : ¬Same (pattern.take 4) (lit "xn--")

/-- the star stands for one letter or more of the first label -/
def Fits (sLeft sRight sRest hostname : CString) : Prop :=
  ∃ sHead sMiddle sTail sDomain, hostname = sHead ++ sMiddle ++ sTail ++ ch '.' :: sDomain ∧
    ch '.' ∉ sHead ++ sMiddle ++ sTail ∧ sMiddle ≠ [] ∧ Same sLeft sHead ∧ Same sRight sTail ∧ Same sRest sDomain

def Wild (pattern hostname : CString) : Prop :=
  ∃ sLeft sRight sRest, Stars pattern sLeft sRight sRest ∧ Fits sLeft sRight sRest hostname

section Names

variable (inet_pton : InetPton)

/-- a dot at the end is left out; with a star a pattern is not for an address of IPv4 -/
def Names (pattern hostname : CString) : Prop :=
  pattern ≠ [] ∧ hostname ≠ [] ∧ (ch '*' ∈ stripDot pattern → inet_pton .AF_INET (stripDot hostname) = none) ∧
    (Same (stripDot pattern) (stripDot hostname) ∨ Wild (stripDot pattern) (stripDot hostname))

variable (hostname : CString)

def Covers : GENERAL_NAME → Prop
  | .GEN_DNS dNSName => 0 ∉ dNSName ∧ Names inet_pton dNSName hostname
  | .GEN_IPADD iPAddress =>
    iPAddress.length = 4 ∧ inet_pton .AF_INET hostname = some iPAddress ∨
      iPAddress.length = 16 ∧ inet_pton .AF_INET6 hostname = some iPAddress
  | .other => False

def GENERAL_NAME.Malformed : GENERAL_NAME → Prop
  | .GEN_DNS dNSName => 0 ∈ dNSName
  | _ => False

/-- the alternative names count if the certificate has any, and of them those before the first malformed one -/
def IsFor (cert : X509) : Prop :=
  match cert.subject_alt_name with
  | some names =>
    ∃ before name after, names = before ++ name :: after ∧ Covers inet_pton hostname name ∧ ∀ n ∈ before, ¬n.Malformed
  | none => ∃ common_name, cert.commonName = some common_name ∧ 0 ∉ common_name ∧ Names inet_pton common_name hostname

end Names

/-! ## The comparisons -/

variable {s t : CString} {c : UInt8}

theorem Curl_raw_equal_iff (hs : (0 : UInt8) ∉ s) (ht : (0 : UInt8) ∉ t) :
    Curl_raw_equal s t = true ↔ Same s t := by
  induction s generalizing t with
  | nil =>
    cases t with
    | nil => exact iff_of_true rfl rfl
    | cons b t =>
      refine iff_of_false (fun h => ht ?_) fun h => by simp [Same, asUpper] at h
      have hb : toupper b = 0 := (beq_iff_eq.1 h).symm
      rw [(toupper_eq_iff rfl).1 hb]
      exact mem_cons_self
  | cons a s ih =>
    cases t with
    | nil =>
      refine iff_of_false (fun h => hs ?_) fun h => by simp [Same, asUpper] at h
      have ha : toupper a = 0 := beq_iff_eq.1 h
      rw [(toupper_eq_iff rfl).1 ha]
      exact mem_cons_self
    | cons b t =>
      rw [Curl_raw_equal]
      split_ifs with hab
      · exact iff_of_false (by simpa using hab) fun h => hab (List.cons.inj h).1
      · rw [ih (not_mem_of_not_mem_cons hs) (not_mem_of_not_mem_cons ht)]
        have hab : toupper a = toupper b := not_not.1 hab
        simp [Same, asUpper, hab]

theorem Curl_raw_nequal_eq (s t : CString) (max : ℕ) :
    Curl_raw_nequal s t max = Curl_raw_equal (s.take max) (t.take max) := by
  induction max generalizing s t with
  | zero => cases s <;> cases t <;> rfl
  | succ max ih =>
    cases s with
    | nil => cases t <;> rfl
    | cons a s =>
      cases t with
      | nil => rfl
      | cons b t => rw [Curl_raw_nequal, ih, take_succ_cons, take_succ_cons, Curl_raw_equal]

theorem Curl_raw_nequal_iff (hs : (0 : UInt8) ∉ s) (ht : (0 : UInt8) ∉ t) (max : ℕ) :
    Curl_raw_nequal s t max = true ↔ Same (s.take max) (t.take max) := by
  rw [Curl_raw_nequal_eq]
  exact Curl_raw_equal_iff (fun h => hs (mem_of_mem_take h)) fun h => ht (mem_of_mem_take h)

theorem strchr_eq_none {p : CString} : strchr p c = none ↔ c ∉ p := by
  rw [strchr]
  split
  · next h =>
    rw [dropWhile_eq_nil_iff] at h
    exact iff_of_true rfl fun hc => absurd (h c hc) (by simp)
  · next h =>
    refine iff_of_false (by simp) fun hc => h ?_
    rw [dropWhile_eq_nil_iff]
    exact fun b hb => decide_eq_true fun hbc : b = c => hc (hbc ▸ hb)

theorem strchr_append (h : c ∉ s) (t : CString) : strchr (s ++ c :: t) c = some (c :: t) := by
  have hdrop : (s ++ c :: t).dropWhile (· ≠ c) = c :: t := by
    have hall : ∀ b ∈ s, decide (b ≠ c) = true := fun b hb => decide_eq_true fun hbc => h (hbc ▸ hb)
    rw [dropWhile_append_of_pos hall]
    exact dropWhile_cons_of_neg (by simp)
  rw [strchr, hdrop]

theorem Same.length (h : Same s t) : s.length = t.length := by
  simpa [asUpper] using congrArg List.length h

theorem Same.mem (h : Same s t) (hc : isalpha c = false) (hs : c ∉ s) : c ∉ t := by
  intro ht
  have hmem : toupper c ∈ s.asUpper := h ▸ mem_map_of_mem ht
  obtain ⟨b, hb, hbc⟩ := mem_map.1 hmem
  rw [(toupper_eq_iff hc).2 rfl] at hbc
  exact hs ((toupper_eq_iff hc).1 hbc ▸ hb)

/-! ## The stars -/

section Labels

variable {pattern hostname sLeft sRight sRest : CString}

theorem fits_iff {sLabel sDomain : CString} (hlabel : ch '.' ∉ sLabel) :
    Fits sLeft sRight sRest (sLabel ++ ch '.' :: sDomain) ↔
      Same sRest sDomain ∧ sLeft.length + 1 + sRight.length ≤ sLabel.length ∧
        Same sLeft (sLabel.take sLeft.length) ∧ Same sRight (sLabel.drop (sLabel.length - sRight.length)) := by
  constructor
  · rintro ⟨sHead, sMiddle, sTail, sDomain', heq, hno, hmiddle, hleft, hright, hrest⟩
    obtain ⟨rfl, rfl⟩ := Paths.append_sep_inj hlabel hno heq
    have hpos := length_pos_of_ne_nil hmiddle
    have hlen : (sHead ++ sMiddle ++ sTail).length - sRight.length = (sHead ++ sMiddle).length := by
      rw [hright.length, length_append, Nat.add_sub_cancel]
    refine ⟨hrest, ?_, ?_, ?_⟩
    · simp only [length_append, hleft.length, hright.length]
      omega
    · rwa [hleft.length, append_assoc, take_left]
    · rwa [hlen, drop_left]
  · rintro ⟨hrest, hlen, hleft, hright⟩
    set n := sLabel.length - sRight.length with hn
    have hcut : sLabel.take sLeft.length ++ (sLabel.drop sLeft.length).take (n - sLeft.length) ++ sLabel.drop n =
        sLabel := by
      rw [← take_add, Nat.add_sub_cancel' (by omega), take_append_drop]
    refine ⟨_, _, _, sDomain, congrArg (· ++ ch '.' :: sDomain) hcut.symm, by rwa [hcut], ?_, hleft, hright, hrest⟩
    refine ne_nil_of_length_pos ?_
    rw [length_take, length_drop]
    omega

theorem exists_stars {sRight' sLabel : CString} (heq : pattern = sLeft ++ ch '*' :: sRight') (hleft : ch '*' ∉ sLeft)
    (heq' : pattern = sLabel ++ ch '.' :: sRest) (hlabel : ch '.' ∉ sLabel) (hlen : sRest.length ≤ sRight'.length)
    (hdots : ch '.' ∈ sRest) (hplain : ¬Same (pattern.take 4) (lit "xn--")) :
    ∃ sRight, Stars pattern sLeft sRight sRest := by
  have hne : ch '*' ≠ ch '.' := by decide
  rcases append_eq_append_iff.1 (heq.symm.trans heq') with ⟨t, ht, hrest⟩ | ⟨t, ht, hrest⟩
  · cases t with
    | nil => exact absurd (List.cons.inj hrest).1 hne
    | cons c sRight =>
      obtain ⟨rfl, rfl⟩ := List.cons.inj hrest
      refine ⟨sRight, heq, hleft, fun hmem => hlabel ?_, hdots, hplain⟩
      rw [ht]
      rcases mem_append.1 hmem with hmem | hmem
      · exact mem_append_left _ hmem
      · exact mem_append_right _ (mem_cons_of_mem _ hmem)
  · cases t with
    | nil => exact absurd (List.cons.inj hrest).1.symm hne
    | cons c t =>
      have hlong : sRest = t ++ ch '*' :: sRight' := (List.cons.inj hrest).2
      rw [hlong, length_append, length_cons] at hlen
      omega

theorem Stars.unique {l r t : CString} (h : Stars pattern sLeft sRight sRest) (h' : Stars pattern l r t) :
    sLeft = l ∧ sRight = r ∧ sRest = t := by
  obtain ⟨rfl, hrest⟩ := Paths.append_sep_inj h.first h'.first (h.eq.symm.trans h'.eq)
  have hno : ∀ {u : CString}, ch '.' ∉ sLeft ++ u → ch '.' ∉ u := fun hu hmem => hu (mem_append_right _ hmem)
  exact ⟨rfl, Paths.append_sep_inj (hno h.label) (hno h'.label) hrest⟩

theorem Stars.fits_of_same (h : Stars pattern sLeft sRight sRest) (hsame : Same pattern hostname) :
    Fits sLeft sRight sRest hostname := by
  have heq := hsame.symm
  rw [h.eq, asUpper, asUpper, map_append, map_cons, map_append, map_cons] at heq
  obtain ⟨sHead, t, rfl, hhead, ht⟩ := map_eq_append_iff.1 heq
  obtain ⟨m, t, rfl, hm, ht⟩ := map_eq_cons_iff.1 ht
  obtain ⟨sTail, t, rfl, htail, ht⟩ := map_eq_append_iff.1 ht
  obtain ⟨d, sDomain, rfl, hd, hdomain⟩ := map_eq_cons_iff.1 ht
  obtain rfl : m = ch '*' := (toupper_eq_iff rfl).1 hm
  obtain rfl : d = ch '.' := (toupper_eq_iff rfl).1 hd
  obtain ⟨hleft, hright⟩ := not_or.1 (fun hmem => h.label (mem_append.2 hmem))
  refine ⟨sHead, [ch '*'], sTail, sDomain, by simp, ?_, by simp, hhead.symm, htail.symm, hdomain.symm⟩
  have hstar : ch '.' ∉ [ch '*'] := by decide
  simp only [mem_append, not_or]
  exact ⟨⟨Same.mem hhead.symm rfl hleft, hstar⟩, Same.mem htail.symm rfl hright⟩

end Labels

/-! ## What is checked -/

section Check

variable {inet_pton : InetPton} {hostname pattern : CString}

theorem not_mem_stripDot {s : CString} {c : UInt8} (h : c ∉ s) : c ∉ stripDot s := by
  rw [stripDot]
  split_ifs
  · exact fun hc => h (mem_of_mem_dropLast hc)
  · exact h

theorem hostmatch_stars {sLeft sRight sRest : CString} (h : Stars (stripDot pattern) sLeft sRight sRest)
    (hh : (0 : UInt8) ∉ hostname) (hp : (0 : UInt8) ∉ pattern) :
    hostmatch inet_pton hostname pattern = true ↔
      inet_pton .AF_INET (stripDot hostname) = none ∧ Fits sLeft sRight sRest (stripDot hostname) := by
  replace hh := not_mem_stripDot hh
  replace hp := not_mem_stripDot hp
  unfold hostmatch
  generalize stripDot hostname = hostname at *
  generalize stripDot pattern = pattern at *
  have hlabel : ch '.' ∉ sLeft ++ ch '*' :: sRight := by
    have hno := h.label
    simp only [mem_append, mem_cons, not_or] at hno ⊢
    exact ⟨hno.1, by decide, hno.2⟩
  have hstar : strchr pattern (ch '*') = some (ch '*' :: (sRight ++ ch '.' :: sRest)) := by
    rw [h.eq, strchr_append h.first]
  have hdot : strchr pattern (ch '.') = some (ch '.' :: sRest) := by
    rw [h.eq, ← cons_append, ← append_assoc, strchr_append hlabel]
  have hdots : strchr sRest (ch '.') ≠ none := fun hnone => strchr_eq_none.1 hnone h.dots
  have hxn : ¬Curl_raw_nequal pattern (lit "xn--") 4 = true := fun hx =>
    h.plain ((Curl_raw_nequal_iff hp (by decide) 4).1 hx)
  simp only [hstar, hdot, drop_succ_cons, drop_zero]
  cases hip : inet_pton .AF_INET hostname with
  | some ip => simp
  | none =>
    simp only [Option.isSome_none, Bool.false_eq_true, if_false, true_and, hdots, hxn, false_or, or_false]
    rw [if_neg (by simp; omega)]
    by_cases hmem : ch '.' ∈ hostname
    · obtain ⟨sLabel, sDomain, rfl, hno⟩ := eq_append_cons_of_mem hmem
      have hlen : (sLabel ++ ch '.' :: sDomain).length - (ch '.' :: sDomain).length = sLabel.length := by simp
      have hstars : pattern.length - (ch '.' :: sRest).length = sLeft.length + 1 + sRight.length := by
        rw [h.eq]
        simp
        omega
      have hprefix : pattern.length - (ch '*' :: (sRight ++ ch '.' :: sRest)).length = sLeft.length := by
        rw [h.eq]
        simp
      have hsuffix : (ch '*' :: (sRight ++ ch '.' :: sRest)).length - 1 - (ch '.' :: sRest).length = sRight.length := by
        simp
      rw [strchr_append hno, fits_iff hno]
      simp only [hlen, hstars, hprefix, hsuffix]
      have hzero : 0 ∉ sRight ++ ch '.' :: sRest := fun hmem => hp (h.eq ▸ by simp at hmem ⊢; tauto)
      have hequal : Curl_raw_equal (ch '.' :: sRest) (ch '.' :: sDomain) = true ↔ Same sRest sDomain := by
        rw [Curl_raw_equal_iff (fun hmem => hzero (mem_append_right _ hmem)) (fun hmem => hh (mem_append_right _ hmem))]
        simp [Same, asUpper]
      by_cases hdomain : Same sRest sDomain
      · rw [if_neg (by simp [hequal.2 hdomain]), and_iff_right hdomain]
        by_cases hshort : sLabel.length < sLeft.length + 1 + sRight.length
        · rw [if_pos hshort]
          exact iff_of_false Bool.false_ne_true fun hmatch => absurd hmatch.1 (Nat.not_le.2 hshort)
        · rw [if_neg hshort, and_iff_right (Nat.not_lt.1 hshort), Bool.and_eq_true, Curl_raw_nequal_iff hp hh,
            Curl_raw_nequal_iff hzero fun hmem => hh (mem_of_mem_drop hmem), take_left,
            drop_append_of_le_length (Nat.sub_le _ _), take_append_of_le_length (by omega),
            take_left' (by rw [length_drop]; omega)]
          rw [h.eq, take_left]
      · rw [if_pos (by simpa using fun heq => hdomain (hequal.1 heq))]
        exact iff_of_false Bool.false_ne_true fun hmatch => hdomain hmatch.1
    · simp only [strchr_eq_none.2 hmem]
      refine iff_of_false Bool.false_ne_true ?_
      rintro ⟨sHead, sMiddle, sTail, sDomain, rfl, -⟩
      exact hmem (by simp)

theorem hostmatch_plain (h : ∀ sLeft sRight sRest, ¬Stars (stripDot pattern) sLeft sRight sRest)
    (hh : (0 : UInt8) ∉ hostname) (hp : (0 : UInt8) ∉ pattern) :
    hostmatch inet_pton hostname pattern = true ↔
      (ch '*' ∈ stripDot pattern → inet_pton .AF_INET (stripDot hostname) = none) ∧
        Same (stripDot pattern) (stripDot hostname) := by
  replace hh := not_mem_stripDot hh
  replace hp := not_mem_stripDot hp
  unfold hostmatch
  generalize stripDot hostname = hostname at *
  generalize stripDot pattern = pattern at *
  have hequal := Curl_raw_equal_iff hp hh
  by_cases hstar : ch '*' ∈ pattern
  · obtain ⟨sLeft, sRight, heq, hleft⟩ := eq_append_cons_of_mem hstar
    have hfound : strchr pattern (ch '*') = some (ch '*' :: sRight) := by rw [heq, strchr_append hleft]
    simp only [hfound, hstar, true_implies]
    cases hip : inet_pton .AF_INET hostname with
    | some ip => simp
    | none =>
      rw [if_neg (by simp), and_iff_right rfl, ← hequal]
      by_cases hdot : ch '.' ∈ pattern
      · obtain ⟨sLabel, sRest, heq', hlabel⟩ := eq_append_cons_of_mem hdot
        have hend : strchr pattern (ch '.') = some (ch '.' :: sRest) := by rw [heq', strchr_append hlabel]
        simp only [hend, drop_succ_cons, drop_zero]
        rw [if_pos]
        by_contra hon
        simp only [not_or, strchr_eq_none, not_not, length_cons, Nat.not_lt, Nat.add_le_add_iff_right] at hon
        obtain ⟨hdots, hlen, hxn⟩ := hon
        rw [Curl_raw_nequal_iff hp (by decide)] at hxn
        obtain ⟨s, hstars⟩ := exists_stars heq hleft heq' hlabel hlen hdots hxn
        exact h _ _ _ hstars
      · simp only [strchr_eq_none.2 hdot]
  · simp only [strchr_eq_none.2 hstar]
    exact hequal.trans (and_iff_right fun hmem => absurd hmem hstar).symm

/-- **Which hosts a name is for.** -/
theorem hostcheck_iff (hh : (0 : UInt8) ∉ hostname) (hp : (0 : UInt8) ∉ pattern) :
    Curl_cert_hostcheck inet_pton pattern hostname = true ↔ Names inet_pton pattern hostname := by
  rw [Curl_cert_hostcheck, Names, Bool.and_eq_true, Bool.and_eq_true, decide_eq_true_eq, decide_eq_true_eq, and_assoc]
  refine and_congr_right fun _ => and_congr_right fun _ => ?_
  by_cases h : ∃ sLeft sRight sRest, Stars (stripDot pattern) sLeft sRight sRest
  · obtain ⟨sLeft, sRight, sRest, hstars⟩ := h
    have hstar : ch '*' ∈ stripDot pattern := by simp [hstars.eq]
    rw [hostmatch_stars hstars hh hp, imp_iff_right hstar]
    refine and_congr_right fun _ => ⟨fun hfits => .inr ⟨_, _, _, hstars, hfits⟩, fun hmatch => ?_⟩
    rcases hmatch with hsame | ⟨l, r, t, hstars', hfits⟩
    · exact hstars.fits_of_same hsame
    · obtain ⟨rfl, rfl, rfl⟩ := hstars.unique hstars'
      exact hfits
  · simp only [not_exists] at h
    rw [hostmatch_plain h hh hp]
    refine and_congr_right fun _ => (or_iff_left ?_).symm
    rintro ⟨sLeft, sRight, sRest, hstars, -⟩
    exact h sLeft sRight sRest hstars

/-- an address of IPv6 that has dots is matched like a name -/
example : Curl_cert_hostcheck (fun _ _ => none) (lit "*.2.3.4") (lit "::ffff:1.2.3.4") = true := by decide

theorem length_cStr_iff (s : CString) : s.length = s.cStr.length ↔ (0 : UInt8) ∉ s := by
  constructor
  · intro hlen hzero
    have heq : s.cStr = s := (List.takeWhile_prefix _).eq_of_length hlen.symm
    have hall := takeWhile_eq_self_iff.1 heq 0 hzero
    exact absurd hall (by decide)
  · exact fun h => congrArg List.length (cStr_eq_self h).symm

theorem matchNames_cons (hh : (0 : UInt8) ∉ hostname) (name : GENERAL_NAME) (names : List GENERAL_NAME) :
    matchNames inet_pton hostname (name :: names) = .MatchFound ↔ Covers inet_pton hostname name ∨
      ¬name.Malformed ∧ matchNames inet_pton hostname names = .MatchFound := by
  cases name with
  | GEN_DNS dNSName =>
    rw [matchNames, Covers, GENERAL_NAME.Malformed]
    by_cases hzero : (0 : UInt8) ∈ dNSName
    · rw [if_pos fun hlen => (length_cStr_iff _).1 hlen hzero]
      simp [hzero]
    · rw [if_neg (not_not.2 ((length_cStr_iff _).2 hzero)), cStr_eq_self hzero, ← hostcheck_iff hh hzero]
      split_ifs with hcheck <;> simp [hzero, hcheck]
  | GEN_IPADD iPAddress =>
    have hne : ¬(iPAddress.length = 4 ∧ iPAddress.length = 16) := by omega
    simp only [matchNames, Covers, GENERAL_NAME.Malformed, not_false_eq_true, true_and]
    cases inet_pton .AF_INET hostname <;> cases inet_pton .AF_INET6 hostname <;> split_ifs <;> simp_all
  | other => simp [matchNames, Covers, GENERAL_NAME.Malformed]

theorem matchNames_iff (hh : (0 : UInt8) ∉ hostname) (names : List GENERAL_NAME) :
    matchNames inet_pton hostname names = .MatchFound ↔
      ∃ before name after, names = before ++ name :: after ∧ Covers inet_pton hostname name ∧
        ∀ n ∈ before, ¬n.Malformed := by
  induction names with
  | nil => simp [matchNames]
  | cons name names ih =>
    rw [matchNames_cons hh, ih]
    constructor
    · rintro (hcovers | ⟨hfine, before, n, after, rfl, hcovers, hbefore⟩)
      · exact ⟨[], name, names, rfl, hcovers, by simp⟩
      · exact ⟨name :: before, n, after, rfl, hcovers, forall_mem_cons.2 ⟨hfine, hbefore⟩⟩
    · rintro ⟨before, n, after, heq, hcovers, hbefore⟩
      cases before with
      | nil =>
        obtain ⟨rfl, -⟩ := List.cons.inj heq
        exact .inl hcovers
      | cons m before =>
        obtain ⟨rfl, rfl⟩ := List.cons.inj heq
        obtain ⟨hfine, hbefore⟩ := forall_mem_cons.1 hbefore
        exact .inr ⟨hfine, before, n, after, rfl, hcovers, hbefore⟩

theorem matchNames_ne (names : List GENERAL_NAME) : matchNames inet_pton hostname names ≠ .NoSANPresent := by
  induction names with
  | nil => simp [matchNames]
  | cons name names ih =>
    cases name with
    | other => exact ih
    | GEN_DNS dNSName =>
      rw [matchNames]
      split_ifs <;> simp [ih]
    | GEN_IPADD iPAddress =>
      rw [matchNames]
      repeat' split
      all_goals first | exact ih | exact HostnameValidationResult.noConfusion

/-- **Which certificates are for a host.** -/
theorem verifyHost_iff (sHost : CString) (pCert : X509) :
    ZNC_SSLVerifyHost inet_pton sHost pCert = none ↔ IsFor inet_pton sHost.cStr pCert := by
  have hh : (0 : UInt8) ∉ sHost.cStr := fun hmem => absurd (mem_takeWhile_imp hmem) (by decide)
  have hfound : ZNC_SSLVerifyHost inet_pton sHost pCert = none ↔
      validate_hostname inet_pton sHost.cStr pCert = .MatchFound := by
    rw [ZNC_SSLVerifyHost]
    cases validate_hostname inet_pton sHost.cStr pCert <;> simp
  rw [hfound, IsFor, validate_hostname, matches_subject_alternative_name]
  cases pCert.subject_alt_name with
  | some names =>
    simp only [← matchNames_iff hh]
    have hne : matchNames inet_pton sHost.cStr names ≠ .NoSANPresent := matchNames_ne names
    generalize matchNames inet_pton sHost.cStr names = result at hne ⊢
    cases result <;> simp_all
  | none =>
    simp only [matches_common_name]
    cases pCert.commonName with
    | none => simp
    | some common_name =>
      by_cases hzero : (0 : UInt8) ∈ common_name
      · simp [length_cStr_iff, hzero]
      · have hlen := (length_cStr_iff common_name).2 hzero
        simp [hlen, cStr_eq_self hzero, ← hostcheck_iff hh hzero, hzero]

end Check

/-! ## The connection is kept -/

namespace CZNCSock

theorem mem_foldl (s : CZNCSock) (chain : List (ℤ × CString)) :
    chain.foldl (fun s c => s.verifyPeerCertificate c.1 c.2) s =
      { s with ssCertVerificationErrors :=
          ((chain.filter fun c => c.1 = 0).map (·.2)).foldl OrdSet.insert s.ssCertVerificationErrors } := by
  induction chain generalizing s with
  | nil => rfl
  | cons c chain ih =>
    rw [foldl_cons, ih, verifyPeerCertificate]
    by_cases hc : c.1 = 0 <;> simp [hc]

theorem isEmpty_errors (ssErrors : SCString) (o : Option CString) :
    (match o with | none => ssErrors | some sError => ssErrors.insert sError).isEmpty = true ↔
      ssErrors.isEmpty = true ∧ o = none := by
  cases o with
  | none => simp
  | some sError =>
    rw [OrdSet.isEmpty_iff]
    exact iff_of_false (fun h => h sError (by simp)) (by simp)

theorem checkSSLCert_iff (s : CZNCSock) (inet_pton : InetPton) (cert : X509) :
    s.checkSSLCert inet_pton (some cert) = none ↔ (s.bOutbound = true → s.bTrustAllCerts = true ∨
      getSSLPeerFingerprint cert ∈ s.ssTrustedFingerprints ∨ s.bTrustPKI = true ∧
        s.ssCertVerificationErrors.isEmpty = true ∧ ZNC_SSLVerifyHost inet_pton s.sHostToVerifySSL cert = none) := by
  have hempty := isEmpty_errors s.ssCertVerificationErrors (ZNC_SSLVerifyHost inet_pton s.sHostToVerifySSL cert)
  rw [checkSSLCert.eq_def]
  cases hout : s.bOutbound with
  | false => simp
  | true =>
    simp only [Bool.true_eq_false, if_false, true_implies, ← hempty]
    split_ifs with hall hpki hknown
    · exact iff_of_true rfl (.inl hall)
    · exact iff_of_true rfl (.inr (.inr (Bool.and_eq_true_iff.1 hpki)))
    · exact iff_of_true rfl (.inr (.inl hknown))
    · refine iff_of_false (by simp) ?_
      rintro (h | h | h)
      · exact hall h
      · exact hknown h
      · exact hpki (Bool.and_eq_true_iff.2 h)

end CZNCSock

/-- **Which connections are kept.** An outgoing connection needs a certificate. If not all are trusted, either its
fingerprint is known, or the authorities are trusted, no certificate of the chain was complained about, and it is for the
host. -/
theorem handshake_iff (bOutbound bTrustAllCerts bTrustPKI : Bool) (sHost : CString) (ssFPs : SCString)
    (inet_pton : InetPton) (chain : List (ℤ × CString)) (pCert : Option X509) :
    (CZNCSock.new bOutbound sHost ssFPs bTrustAllCerts bTrustPKI).handshake inet_pton chain pCert = none ↔
      (bOutbound = true → ∃ cert, pCert = some cert ∧ (bTrustAllCerts = true ∨
        CZNCSock.getSSLPeerFingerprint cert ∈ ssFPs ∨
          bTrustPKI = true ∧ (∀ c ∈ chain, c.1 ≠ 0) ∧ IsFor inet_pton sHost.cStr cert)) := by
  have hchain : (((chain.filter fun c => c.1 = 0).map (·.2)).foldl OrdSet.insert OrdSet.empty).isEmpty = true ↔
      ∀ c ∈ chain, c.1 ≠ 0 := by
    simp only [OrdSet.isEmpty_iff, OrdSet.mem_foldl_insert, OrdSet.not_mem_empty, or_false, mem_map,
      mem_filter, decide_eq_true_eq, not_exists, not_and]
    exact ⟨fun h c hc h0 => h c.2 c ⟨hc, h0⟩ rfl, fun h _ c hc _ => h c hc.1 hc.2⟩
  rw [CZNCSock.handshake, CZNCSock.mem_foldl]
  cases pCert with
  | none =>
    rw [CZNCSock.checkSSLCert.eq_def]
    cases bOutbound <;> simp [CZNCSock.new]
  | some cert =>
    rw [CZNCSock.checkSSLCert_iff]
    simp only [CZNCSock.new, hchain, verifyHost_iff, Option.some.injEq, exists_eq_left']

/-- `CIRCNetwork::AddTrustedFingerprint(sFP)` -/
def addTrustedFingerprint (ssFPs : SCString) (sFP : CString) : SCString :=
  ssFPs.insert ((sFP.escape_n .EHEXCOLON .EHEXCOLON).getD [])

/-- **A fingerprint that is shown can be trusted**: once it is added as it is shown, whatever is added after it, every
connection with that certificate is kept. -/
theorem trusted_handshake (bOutbound bTrustAllCerts bTrustPKI : Bool) (sHost : CString) (ssFPs : SCString)
    (inet_pton : InetPton) (chain : List (ℤ × CString)) (cert : X509) (buf : { buf : CString // buf.length = 256 / 8 })
    (vsFPs : VCString) :
    let cert := { cert with digest := some buf.val }
    let ssFPs := (CZNCSock.getSSLPeerFingerprint cert :: vsFPs).foldl addTrustedFingerprint ssFPs
    (CZNCSock.new bOutbound sHost ssFPs bTrustAllCerts bTrustPKI).handshake inet_pton chain (some cert) = none := by
  intro cert ssFPs
  have hlen : escapedLength .EHEXCOLON buf.val < 2 ^ 32 := by
    have hsum : (buf.val.map (escapedWidth .EHEXCOLON)).sum = buf.val.length * 3 := by
      change (buf.val.map fun _ => 3).sum = _
      simp
    rw [escapedLength, hsum, buf.2]
    decide
  have hshown : CZNCSock.getSSLPeerFingerprint cert = escaped .EHEXCOLON buf.val := by
    change (escape_n buf.val .EASCII .EHEXCOLON).getD [] = _
    rw [escape_n_ascii _ _ (by rw [buf.2]; decide)]
    rfl
  have hadded : (escape_n (escaped .EHEXCOLON buf.val) .EHEXCOLON .EHEXCOLON).getD [] = escaped .EHEXCOLON buf.val := by
    obtain ⟨hall, hcut⟩ := decodeAll_hexColon buf.val
    rw [escape_n_eq _ _ _ (by rwa [length_escaped]) hcut, hall]
    rfl
  have hfold (vs : VCString) (ss : SCString) : vs.foldl addTrustedFingerprint ss =
      (vs.map fun sFP => (escape_n sFP .EHEXCOLON .EHEXCOLON).getD []).foldl OrdSet.insert ss := by
    rw [foldl_map]
    rfl
  have hmem : CZNCSock.getSSLPeerFingerprint cert ∈ ssFPs := by
    change _ ∈ (_ :: vsFPs).foldl addTrustedFingerprint _
    rw [hfold, OrdSet.mem_foldl_insert, map_cons, hshown, hadded]
    exact .inl mem_cons_self
  rw [CZNCSock.handshake, CZNCSock.mem_foldl, CZNCSock.checkSSLCert_iff]
  exact fun _ => .inr (.inl hmem)

end ZNC.SSLVerifyHost
