/-
Alias expansion: `CAlias::ParseToken` and `CAlias::Imprint` of `modules/alias.cpp`.

The action text is searched for percent signs. At each, `ParseToken` reads a reference to a token of the line, `%[?]n[+]%`, and
appends the token; a percent sign that begins none is passed over, and the search goes on behind it.

Model: `expandString` is `parent->ExpandString`. What is thrown is the result `error`; `substr` throws behind the end of a text.

Results:
- `parseToken_eq`: what `ParseToken` does at a percent sign;
- `imprintLoop_eq`: the loop emits the pieces of the text, one by one;
- `imprint_scan`: the text of `Imprint`, and when it throws.
-/
import ZNC.Decimal
import ZNC.Lib.Segments
import ZNC.Token

namespace ZNC.AliasImprint

open CString Segments List

/-! ## Model -/

inductive Exception where
  /-- "missing required parameter: {1}" -/
  | invalid_argument (token : ℤ)
  | out_of_range
deriving DecidableEq, Repr

/-- `if (alias_data.length() > index && alias_data[index] == c) ++index`, and whether it was so -/
def tryRead (alias_data : CString) (c : UInt8) (index : ℕ) : Bool × ℕ :=
  if alias_data[index]? = some c then (true, index + 1) else (false, index)

/-- `ParseToken(alias_data, line, output, caret, skip)`: the last three, as it leaves them -/
def parseToken (alias_data line output : CString) (caret : ℕ) : Except Exception (CString × ℕ × ℕ) :=
  let (optional, index) := tryRead alias_data (ch '?') (caret + 1)
  match if index < alias_data.length then convert (alias_data.drop index) else none with
  -- malformed: the percent sign is to be skipped
  | none => .ok (output, caret, 1)
  | some token =>
    let (subsequent, index) := tryRead alias_data (ch '+') (index + (digits (alias_data.drop index)).length)
    let (ended, index) := tryRead alias_data (ch '%') index
    if ended then
      let stok := line.token (token % 2 ^ 64).toNat subsequent (ch ' ') false
      if stok = [] ∧ ¬optional then .error (.invalid_argument token) else .ok (output ++ stok, index, 0)
    else .ok (output, caret, 1)

/-- `alias_data.substr(pos, n)` -/
def substr (alias_data : CString) (pos n : ℕ) : Except Exception CString :=
  if alias_data.length < pos then .error .out_of_range else .ok ((alias_data.drop pos).take n)

/-- `alias_data.find("%", pos)` -/
def findPercent (alias_data : CString) (pos : ℕ) : Option ℕ := (find [ch '%'] (alias_data.drop pos)).map (· + pos)

theorem findPercent_bounds {alias_data : CString} {pos found : ℕ} (h : findPercent alias_data pos = some found) :
    pos ≤ found ∧ found < alias_data.length := by
  obtain ⟨i, hi, rfl⟩ := Option.map_eq_some_iff.1 h
  have hbound := find_bound hi
  rw [length_drop, length_singleton] at hbound
  omega

theorem le_tryRead (alias_data : CString) (c : UInt8) (index : ℕ) : index ≤ (tryRead alias_data c index).2 := by
  rw [tryRead]
  split_ifs
  · exact Nat.le_succ index
  · exact le_rfl

theorem parseToken_advances {alias_data line output output' : CString} {caret caret' skip : ℕ}
    (h : parseToken alias_data line output caret = .ok (output', caret', skip)) : caret < caret' + skip := by
  have hoptional := le_tryRead alias_data (ch '?') (caret + 1)
  rw [parseToken] at h
  generalize tryRead alias_data (ch '?') (caret + 1) = r1 at h hoptional
  obtain ⟨optional, i1⟩ := r1
  dsimp only at h hoptional
  split at h
  · cases h
    omega
  · have hsubsequent := le_tryRead alias_data (ch '+') (i1 + (digits (alias_data.drop i1)).length)
    generalize tryRead alias_data (ch '+') (i1 + (digits (alias_data.drop i1)).length) = r2 at h hsubsequent
    obtain ⟨subsequent, i2⟩ := r2
    have hended := le_tryRead alias_data (ch '%') i2
    dsimp only at h hsubsequent
    generalize tryRead alias_data (ch '%') i2 = r3 at h hended
    obtain ⟨ended, i3⟩ := r3
    dsimp only at h hended
    split_ifs at h <;> cases h <;> omega

def imprintLoop (alias_data line output : CString) (lastfound skip : ℕ) : Except Exception CString :=
  match _hfound : findPercent alias_data (lastfound + skip) with
  | none => return output ++ (← substr alias_data lastfound alias_data.length)
  | some found => do
    let between ← substr alias_data lastfound (found - lastfound)
    match _hparsed : parseToken alias_data line (output ++ between) found with
    | .error e => .error e
    | .ok (output, found, skip) => imprintLoop alias_data line output found skip
termination_by alias_data.length - (lastfound + skip)
decreasing_by
  have hbounds := findPercent_bounds _hfound
  have hadvances := parseToken_advances _hparsed
  omega

structure CAlias where
  expandString : CString → CString
  alias_cmds : VCString

def CAlias.getCommands (a : CAlias) : CString := join (lit "\n") a.alias_cmds

def CAlias.imprint (a : CAlias) (line : CString) : Except Exception CString :=
  imprintLoop (a.expandString a.getCommands) line [] 0 0

/-! ## References in a text -/

/-- `%[?]n[+]%` -/
structure Reference where
  optional : Bool
  token : ℕ
  subsequent : Bool

/-- the letter of a flag, if it is set -/
def flag (b : Bool) (c : UInt8) : CString := if b then [c] else []

/-- `w` is the text of `x`, with the number in decimal; an `int` holds it -/
def Reference.Spelled (x : Reference) (w : CString) : Prop :=
  ∃ n : CString, n ≠ [] ∧ (∀ c ∈ n, isdigit c = true) ∧ n.decimal = x.token ∧ x.token < 2 ^ 31 ∧
    w = ch '%' :: (flag x.optional (ch '?') ++ (n ++ (flag x.subsequent (ch '+') ++ [ch '%'])))

/-- what a reference stands for -/
def Reference.value (line : CString) (x : Reference) : CString := line.token x.token x.subsequent (ch ' ') false

theorem digits_append {n q : CString} (hn : ∀ c ∈ n, isdigit c = true) (hq : ∀ c ∈ q.head?, isdigit c = false) :
    digits (n ++ q) = n := by
  rw [digits, takeWhile_append_of_pos hn]
  cases q with
  | nil => rw [takeWhile_nil, append_nil]
  | cons c q =>
    have hc := hq c rfl
    rw [takeWhile_cons_of_neg (by rw [hc]; exact Bool.false_ne_true), append_nil]

theorem head_behind (subsequent : Bool) (r : CString) :
    ∀ c ∈ (flag subsequent (ch '+') ++ ch '%' :: r).head?, isdigit c = false := by
  intro c hc
  cases subsequent <;> cases hc <;> rfl

theorem flag_append_inj {b b' : Bool} {c : UInt8} {q q' : CString} (hq : q.head? ≠ some c) (hq' : q'.head? ≠ some c)
    (h : flag b c ++ q = flag b' c ++ q') : b = b' ∧ q = q' := by
  cases b <;> cases b'
  · exact ⟨rfl, h⟩
  · exact absurd (congrArg List.head? h) hq
  · exact absurd (congrArg List.head? h).symm hq'
  · exact ⟨rfl, tail_eq_of_cons_eq h⟩

theorem head_number {n : CString} (hne : n ≠ []) (hn : ∀ c ∈ n, isdigit c = true) {c : UInt8} (hc : isdigit c = false)
    (q : CString) : (n ++ q).head? ≠ some c := by
  cases n with
  | nil => exact absurd rfl hne
  | cons d n =>
    intro h
    have hd := hn d mem_cons_self
    rw [Option.some.inj h, hc] at hd
    exact absurd hd Bool.false_ne_true

theorem head_percent (r : CString) : (ch '%' :: r : CString).head? ≠ some (ch '+') := by
  intro h
  exact absurd (Option.some.inj h) (by decide)

/-- **At most one reference** begins at a place of a text. -/
theorem spelled_unique {x x' : Reference} {w w' r r' : CString} (h : x.Spelled w) (h' : x'.Spelled w')
    (heq : w ++ r = w' ++ r') : x = x' ∧ r = r' := by
  obtain ⟨n, hne, hn, hvalue, -, rfl⟩ := h
  obtain ⟨n', hne', hn', hvalue', -, rfl⟩ := h'
  simp only [cons_append, append_assoc, nil_append, List.cons.injEq, true_and] at heq
  obtain ⟨hoptional, hnumber⟩ := flag_append_inj (head_number hne hn rfl _) (head_number hne' hn' rfl _) heq
  have hsame : n = n' := by
    rw [← digits_append hn (head_behind _ r), hnumber, digits_append hn' (head_behind _ r')]
  rw [hsame, append_cancel_left_eq] at hnumber
  obtain ⟨hsubsequent, hrest⟩ := flag_append_inj (head_percent r) (head_percent r') hnumber
  refine ⟨?_, tail_eq_of_cons_eq hrest⟩
  cases x
  cases x'
  simp only [Reference.mk.injEq]
  exact ⟨hoptional, hvalue.symm.trans (hsame ▸ hvalue'), hsubsequent⟩

/-! ## `ParseToken` at a percent sign -/

variable {alias_data line output : CString}

theorem tryRead_spec (alias_data : CString) (c : UInt8) (index : ℕ) :
    alias_data.drop index = flag (tryRead alias_data c index).1 c ++ alias_data.drop (tryRead alias_data c index).2 := by
  rw [tryRead]
  split_ifs with h
  · exact (drop_eq_getElem?_toList_append).trans (by rw [h]; rfl)
  · rfl

theorem tryRead_flag {c : UInt8} {index : ℕ} {b : Bool} {q : CString} (h : alias_data.drop index = flag b c ++ q)
    (hq : q.head? ≠ some c) : tryRead alias_data c index = (b, index + (flag b c).length) := by
  have hhead : alias_data[index]? = (flag b c ++ q).head? := by rw [← h, head?_drop]
  rw [tryRead, hhead]
  cases b with
  | false => exact if_neg hq
  | true => exact if_pos rfl

/-- **`ParseToken` at a reference** -/
theorem parseToken_reference {x : Reference} {w r : CString} (hx : x.Spelled w) {caret : ℕ}
    (h : alias_data.drop caret = w ++ r) : parseToken alias_data line output caret =
      if x.value line = [] ∧ ¬x.optional then .error (.invalid_argument x.token)
      else .ok (output ++ x.value line, caret + w.length, 0) := by
  obtain ⟨n, hne, hn, hvalue, hfits, rfl⟩ := hx
  have hpercent : [ch '%'] ++ r = flag true (ch '%') ++ r := rfl
  have h0 : alias_data.drop (caret + 1) =
      flag x.optional (ch '?') ++ (n ++ (flag x.subsequent (ch '+') ++ (flag true (ch '%') ++ r))) := by
    rw [← drop_drop, h, ← hpercent]
    simp only [cons_append, append_assoc, drop_succ_cons, drop_zero]
  have hoptional := tryRead_flag h0 (head_number hne hn rfl _)
  have h1 : alias_data.drop (caret + 1 + (flag x.optional (ch '?')).length) =
      n ++ (flag x.subsequent (ch '+') ++ (flag true (ch '%') ++ r)) := by
    rw [← drop_drop, h0, drop_left]
  have hdigits : digits (alias_data.drop (caret + 1 + (flag x.optional (ch '?')).length)) = n := by
    rw [h1]
    exact digits_append hn (head_behind _ r)
  have hinside : caret + 1 + (flag x.optional (ch '?')).length < alias_data.length := by
    by_contra hout
    have hnil := drop_eq_nil_of_le (not_lt.1 hout)
    rw [hnil] at hdigits
    exact hne hdigits.symm
  have hconvert : convert (alias_data.drop (caret + 1 + (flag x.optional (ch '?')).length)) = some (x.token : ℤ) := by
    rw [convert_digits (by rw [hdigits]; exact hne), hdigits, hvalue, if_pos hfits]
  have h2 : alias_data.drop (caret + 1 + (flag x.optional (ch '?')).length + n.length) =
      flag x.subsequent (ch '+') ++ (flag true (ch '%') ++ r) := by
    rw [← drop_drop, h1, drop_left]
  have hsubsequent := tryRead_flag h2 (head_percent r)
  have h3 : alias_data.drop (caret + 1 + (flag x.optional (ch '?')).length + n.length + (flag x.subsequent (ch '+')).length) =
      flag true (ch '%') ++ r := by
    rw [← drop_drop, h2, drop_left]
  have hended : tryRead alias_data (ch '%')
      (caret + 1 + (flag x.optional (ch '?')).length + n.length + (flag x.subsequent (ch '+')).length) =
      (true, caret + 1 + (flag x.optional (ch '?')).length + n.length + (flag x.subsequent (ch '+')).length + 1) := by
    rw [tryRead, ← head?_drop, h3]
    exact if_pos rfl
  have htoken : ((x.token : ℤ) % 2 ^ 64).toNat = x.token := by omega
  have hlength : (ch '%' :: (flag x.optional (ch '?') ++ (n ++ (flag x.subsequent (ch '+') ++ [ch '%'])))).length =
      1 + (flag x.optional (ch '?')).length + n.length + (flag x.subsequent (ch '+')).length + 1 := by
    simp only [length_cons, length_append, length_nil]
    omega
  rw [parseToken, hoptional]
  dsimp only
  rw [if_pos hinside, hconvert, hdigits]
  dsimp only
  rw [hsubsequent]
  dsimp only
  rw [hended, htoken, hlength]
  simp only [Reference.value, if_true, Nat.add_assoc]

/-- **`ParseToken` at a percent sign that begins no reference** -/
theorem parseToken_skip {caret : ℕ} {p : CString} (hcaret : alias_data.drop caret = ch '%' :: p)
    (h : ∀ x w r, Reference.Spelled x w → ch '%' :: p ≠ w ++ r) :
    parseToken alias_data line output caret = .ok (output, caret, 1) := by
  have hp : alias_data.drop (caret + 1) = p := by
    rw [← drop_drop, hcaret]
    rfl
  have hoptional := tryRead_spec alias_data (ch '?') (caret + 1)
  rw [parseToken]
  generalize tryRead alias_data (ch '?') (caret + 1) = r1 at hoptional ⊢
  obtain ⟨optional, i1⟩ := r1
  dsimp only at hoptional ⊢
  cases hconvert : (if i1 < alias_data.length then convert (alias_data.drop i1) else none) with
  | none => rfl
  | some token =>
    dsimp only
    have hsubsequent := tryRead_spec alias_data (ch '+') (i1 + (digits (alias_data.drop i1)).length)
    generalize tryRead alias_data (ch '+') (i1 + (digits (alias_data.drop i1)).length) = r2 at hsubsequent ⊢
    obtain ⟨subsequent, i2⟩ := r2
    have hended := tryRead_spec alias_data (ch '%') i2
    dsimp only at hsubsequent ⊢
    generalize tryRead alias_data (ch '%') i2 = r3 at hended ⊢
    obtain ⟨ended, i3⟩ := r3
    dsimp only at hended ⊢
    refine if_neg fun hclosed => ?_
    have hinside : i1 < alias_data.length := by
      by_contra hout
      rw [if_neg hout] at hconvert
      exact absurd hconvert (by simp)
    have hsome : (convert (alias_data.drop i1)).isSome := by
      rw [if_pos hinside] at hconvert
      rw [hconvert]
      rfl
    have hnumber : alias_data.drop i1 =
        digits (alias_data.drop i1) ++ (flag subsequent (ch '+') ++ ch '%' :: alias_data.drop i3) := calc
      alias_data.drop i1 = digits (alias_data.drop i1) ++ alias_data.drop (i1 + (digits (alias_data.drop i1)).length) := by
        rw [← drop_drop]
        exact (prefix_iff_eq_append.1 (List.takeWhile_prefix _)).symm
      _ = digits (alias_data.drop i1) ++ (flag subsequent (ch '+') ++ ch '%' :: alias_data.drop i3) := by
        rw [hsubsequent, hended, hclosed]
        rfl
    by_cases hdigits : digits (alias_data.drop i1) = []
    · -- white space or a sign before the number: `index` does not move over it
      rw [hdigits, nil_append] at hnumber
      rw [hnumber] at hdigits hsome
      cases subsequent with
      | false => exact (convert_no_digits hdigits hsome).1 rfl
      | true => exact (convert_no_digits hdigits hsome).2 rfl rfl
    · have hfits : (digits (alias_data.drop i1)).decimal < 2 ^ 31 := by
        by_contra hlarge
        rw [convert_digits hdigits, if_neg hlarge] at hsome
        exact absurd hsome (by simp)
      refine h ⟨optional, (digits (alias_data.drop i1)).decimal, subsequent⟩ _ (alias_data.drop i3)
        ⟨_, hdigits, fun c hc => mem_takeWhile_imp hc, rfl, hfits, rfl⟩ ?_
      rw [← hp, hoptional]
      dsimp only
      nth_rewrite 1 [hnumber]
      simp only [cons_append, append_assoc, nil_append]

/-! ## The pieces of a text -/

inductive Piece where
  | verbatim (c : UInt8)
  | token (x : Reference)

/-- a text read from the left: the reference that begins at a place, else one letter -/
inductive Scan : CString → List Piece → Prop
  | nil : Scan [] []
  | token {x : Reference} {w r : CString} {ps : List Piece} (hx : x.Spelled w) (hr : Scan r ps) : Scan (w ++ r) (.token x :: ps)
  | verbatim {c : UInt8} {r : CString} {ps : List Piece} (hc : ∀ x w q, Reference.Spelled x w → c :: r ≠ w ++ q)
      (hr : Scan r ps) : Scan (c :: r) (.verbatim c :: ps)

/-- what a piece becomes -/
def Piece.text (line : CString) : Piece → CString
  | .verbatim c => [c]
  | .token x => x.value line

/-- a required token that the line does not have -/
def Piece.Lacking (line : CString) : Piece → Prop
  | .verbatim _ => False
  | .token x => x.value line = [] ∧ ¬x.optional

/-- one piece at the end of the output -/
def emit (line output : CString) : Piece → Except Exception CString
  | .verbatim c => .ok (output ++ [c])
  | .token x => if x.value line = [] ∧ ¬x.optional then .error (.invalid_argument x.token) else .ok (output ++ x.value line)

theorem spelled_cons {x : Reference} {w : CString} (h : x.Spelled w) : ∃ t, w = ch '%' :: t := by
  obtain ⟨n, -, -, -, -, rfl⟩ := h
  exact ⟨_, rfl⟩

theorem no_reference {c : UInt8} (hc : c ≠ ch '%') (r : CString) : ∀ x w q, Reference.Spelled x w → c :: r ≠ w ++ q := by
  intro x w q hw heq
  obtain ⟨t, rfl⟩ := spelled_cons hw
  exact hc (List.cons.inj heq).1

theorem scan_exists (s : CString) : ∃ ps, Scan s ps := by
  induction hn : s.length using Nat.strongRecOn generalizing s with
  | _ n ih =>
    cases s with
    | nil => exact ⟨[], .nil⟩
    | cons c r =>
      by_cases h : ∃ x w q, Reference.Spelled x w ∧ c :: r = w ++ q
      · obtain ⟨x, w, q, hw, heq⟩ := h
        obtain ⟨t, rfl⟩ := spelled_cons hw
        have hlen := congrArg List.length heq
        simp only [length_append, length_cons] at hlen
        obtain ⟨ps, hps⟩ := ih q.length (by rw [← hn, length_cons]; omega) q rfl
        rw [heq]
        exact ⟨_, .token hw hps⟩
      · obtain ⟨ps, hps⟩ := ih r.length (by rw [← hn]; exact Nat.lt_succ_self _) r rfl
        exact ⟨_, .verbatim (fun x w q hw heq => h ⟨x, w, q, hw, heq⟩) hps⟩

variable {ps : List Piece}

theorem scan_reference {x : Reference} {w r : CString} (hw : x.Spelled w) (h : Scan (w ++ r) ps) :
    ∃ qs, ps = .token x :: qs ∧ Scan r qs := by
  generalize hs : w ++ r = s at h
  cases h with
  | nil =>
    obtain ⟨t, rfl⟩ := spelled_cons hw
    exact absurd hs (by simp)
  | token hx hr =>
    obtain ⟨rfl, rfl⟩ := spelled_unique hw hx hs
    exact ⟨_, rfl, hr⟩
  | verbatim hc hr => exact absurd hs.symm (hc x w r hw)

theorem scan_letter {c : UInt8} {r : CString} (hc : ∀ x w q, Reference.Spelled x w → c :: r ≠ w ++ q)
    (h : Scan (c :: r) ps) : ∃ qs, ps = .verbatim c :: qs ∧ Scan r qs := by
  generalize hs : c :: r = s at h
  cases h with
  | nil => exact absurd hs (by simp)
  | token hx hr => exact absurd hs (hc _ _ _ hx)
  | verbatim _ hr =>
    obtain ⟨rfl, rfl⟩ := List.cons.inj hs
    exact ⟨_, rfl, hr⟩

/-- **A text has one reading.** -/
theorem scan_unique {s : CString} {qs : List Piece} (h : Scan s ps) (h' : Scan s qs) : qs = ps := by
  induction h generalizing qs with
  | nil =>
    generalize hs : ([] : CString) = s at h'
    cases h' with
    | nil => rfl
    | token hx hr =>
      obtain ⟨t, rfl⟩ := spelled_cons hx
      exact absurd hs (by simp)
    | verbatim hc hr => exact absurd hs (by simp)
  | token hx hr ih =>
    obtain ⟨qs, rfl, hqs⟩ := scan_reference hx h'
    rw [ih hqs]
  | verbatim hc hr ih =>
    obtain ⟨qs, rfl, hqs⟩ := scan_letter hc h'
    rw [ih hqs]

theorem scan_plain {u r : CString} (hu : ch '%' ∉ u) (h : Scan (u ++ r) ps) (output : CString) :
    ∃ qs, Scan r qs ∧ ps.foldlM (emit line) output = qs.foldlM (emit line) (output ++ u) := by
  induction u generalizing ps output with
  | nil => exact ⟨ps, h, by rw [append_nil]⟩
  | cons c u ih =>
    obtain ⟨hc, hu⟩ := not_or.1 fun h => hu (mem_cons.2 h)
    obtain ⟨qs, rfl, hqs⟩ := scan_letter (no_reference (Ne.symm hc) (u ++ r)) h
    obtain ⟨rs, hrs, hfold⟩ := ih hu hqs (output ++ [c])
    refine ⟨rs, hrs, ?_⟩
    rw [append_assoc] at hfold
    exact hfold

theorem foldlM_emit (ps : List Piece) (output : CString) :
    ((∃ e, ps.foldlM (emit line) output = .error e) ↔ ∃ p ∈ ps, p.Lacking line) ∧
      ∀ out, ps.foldlM (emit line) output = .ok out → out = output ++ ps.flatMap (Piece.text line) := by
  induction ps generalizing output with
  | nil =>
    refine ⟨iff_of_false (fun ⟨e, he⟩ => ?_) (by simp), fun out h => ?_⟩
    · cases he
    · cases h
      exact (append_nil output).symm
  | cons p ps ih =>
    have hgo (hp : ¬p.Lacking line) (hfold : (p :: ps).foldlM (emit line) output = ps.foldlM (emit line) (output ++ p.text line)) :
        ((∃ e, (p :: ps).foldlM (emit line) output = .error e) ↔ ∃ q ∈ p :: ps, q.Lacking line) ∧
          ∀ out, (p :: ps).foldlM (emit line) output = .ok out → out = output ++ (p :: ps).flatMap (Piece.text line) := by
      obtain ⟨hthrows, htext⟩ := ih (output ++ p.text line)
      rw [hfold, hthrows, flatMap_cons, ← append_assoc]
      exact ⟨by simp [hp], htext⟩
    cases p with
    | verbatim c => exact hgo id rfl
    | token x =>
      by_cases hx : x.value line = [] ∧ ¬x.optional
      · have hfold : (Piece.token x :: ps).foldlM (emit line) output = .error (.invalid_argument x.token) := by
          rw [foldlM_cons, emit, if_pos hx]
          rfl
        rw [hfold]
        refine ⟨iff_of_true ⟨_, rfl⟩ ⟨_, mem_cons_self, hx⟩, fun out h => ?_⟩
        cases h
      · refine hgo hx ?_
        rw [foldlM_cons, emit, if_neg hx]
        rfl

/-! ## The loop -/

theorem substr_ok {pos : ℕ} (h : pos ≤ alias_data.length) (n : ℕ) :
    substr alias_data pos n = .ok ((alias_data.drop pos).take n) := if_neg (not_lt.2 h)

theorem findPercent_some {pos found : ℕ} (h : findPercent alias_data pos = some found) : ∃ u p,
    ch '%' ∉ u ∧ alias_data.drop pos = u ++ ch '%' :: p ∧ found = pos + u.length ∧ alias_data.drop found = ch '%' :: p := by
  obtain ⟨i, hi, rfl⟩ := Option.map_eq_some_iff.1 h
  obtain ⟨hle, ⟨p, hp⟩, hfirst⟩ := find_eq_some_iff.1 hi
  have hlen : ((alias_data.drop pos).take i).length = i := length_take_of_le hle
  refine ⟨(alias_data.drop pos).take i, p, fun hmem => ?_, ?_, by omega, ?_⟩
  · obtain ⟨j, hj, hget⟩ := mem_iff_getElem.1 hmem
    rw [hlen] at hj
    refine hfirst j hj ⟨(alias_data.drop pos).drop (j + 1), ?_⟩
    rw [getElem_take] at hget
    rw [← hget]
    exact getElem_cons_drop (by omega)
  · calc
      alias_data.drop pos = (alias_data.drop pos).take i ++ (alias_data.drop pos).drop i := (take_append_drop i _).symm
      _ = (alias_data.drop pos).take i ++ ch '%' :: p := by
        rw [← hp]
        rfl
  · rw [Nat.add_comm, ← drop_drop, ← hp]
    rfl

theorem findPercent_none {pos : ℕ} (h : findPercent alias_data pos = none) : ch '%' ∉ alias_data.drop pos := by
  intro hmem
  obtain ⟨u, v, huv⟩ := append_of_mem hmem
  exact find_eq_none_iff.1 (Option.map_eq_none_iff.1 h) ⟨u, v, by rw [huv, append_assoc]; rfl⟩

theorem imprintLoop_none {lastfound skip : ℕ} (hle : lastfound ≤ alias_data.length)
    (h : findPercent alias_data (lastfound + skip) = none) :
    imprintLoop alias_data line output lastfound skip = .ok (output ++ alias_data.drop lastfound) := by
  rw [imprintLoop]
  split
  · rw [substr_ok hle, take_of_length_le (by rw [length_drop]; omega)]
    rfl
  · case h_2 found hfound => exact absurd (h.symm.trans hfound) (by simp)

theorem imprintLoop_some {lastfound skip found : ℕ} (hle : lastfound ≤ alias_data.length)
    (h : findPercent alias_data (lastfound + skip) = some found) : imprintLoop alias_data line output lastfound skip =
      (parseToken alias_data line (output ++ (alias_data.drop lastfound).take (found - lastfound)) found).bind
        fun r => imprintLoop alias_data line r.1 r.2.1 r.2.2 := by
  rw [imprintLoop]
  split
  · case h_1 hnone => exact absurd (h.symm.trans hnone) (by simp)
  · case h_2 found' hfound =>
    obtain rfl : found' = found := Option.some.inj (hfound.symm.trans h)
    rw [substr_ok hle]
    change (match _hparsed : parseToken alias_data line _ found' with | .error e => _ | .ok (output, found, skip) => _) = _
    split
    · case h_1 e he =>
      rw [he]
      rfl
    · case h_2 output' caret skip' hparsed =>
      rw [hparsed]
      rfl

/-- **The loop** emits the pieces of what it has not looked at, behind the percent sign that it passed over. -/
theorem imprintLoop_eq (line output : CString) {lastfound skip : ℕ} (hin : lastfound + skip ≤ alias_data.length)
    {ps : List Piece} (h : Scan (alias_data.drop (lastfound + skip)) ps) :
    imprintLoop alias_data line output lastfound skip =
      ps.foldlM (emit line) (output ++ (alias_data.drop lastfound).take skip) := by
  induction hn : alias_data.length - (lastfound + skip) using Nat.strongRecOn generalizing output lastfound skip ps with
  | _ n ih =>
    have hrest : alias_data.drop lastfound = (alias_data.drop lastfound).take skip ++ alias_data.drop (lastfound + skip) := by
      rw [← drop_drop, take_append_drop]
    cases hfound : findPercent alias_data (lastfound + skip) with
    | none =>
      have hplain := findPercent_none hfound
      rw [← append_nil (alias_data.drop (lastfound + skip))] at h
      obtain ⟨qs, hqs, hfold⟩ := scan_plain hplain h (output ++ (alias_data.drop lastfound).take skip)
      rw [imprintLoop_none (by omega) hfound, hfold, scan_unique .nil hqs, append_assoc, ← hrest]
      rfl
    | some found =>
      have hbounds := findPercent_bounds hfound
      obtain ⟨u, p, hu, hsplit, hplace, hdrop⟩ := findPercent_some hfound
      have hbetween : (alias_data.drop lastfound).take (found - lastfound) = (alias_data.drop lastfound).take skip ++ u := by
        have hlen : ((alias_data.drop lastfound).take skip).length = skip :=
          length_take_of_le (by rw [length_drop]; omega)
        have hall : alias_data.drop lastfound = ((alias_data.drop lastfound).take skip ++ u) ++ ch '%' :: p := by
          rw [append_assoc, ← hsplit]
          exact hrest
        conv_lhs => rw [hall]
        exact take_left' (by rw [length_append, hlen]; omega)
      rw [hsplit] at h
      obtain ⟨qs, hqs, hfold⟩ := scan_plain hu h (output ++ (alias_data.drop lastfound).take skip)
      rw [imprintLoop_some (by omega) hfound, hfold, hbetween, append_assoc]
      by_cases hreference : ∃ x w q, Reference.Spelled x w ∧ ch '%' :: p = w ++ q
      · obtain ⟨x, w, q, hw, heq⟩ := hreference
        rw [heq] at hqs hdrop
        obtain ⟨rs, rfl, hrs⟩ := scan_reference hw hqs
        rw [parseToken_reference hw hdrop, foldlM_cons, emit]
        split_ifs
        · rfl
        · obtain ⟨t, rfl⟩ := spelled_cons hw
          have hlen := congrArg List.length hdrop
          rw [length_drop, length_append] at hlen
          have hbehind : alias_data.drop (found + (ch '%' :: t).length + 0) = q := by
            rw [Nat.add_zero, ← drop_drop, hdrop, drop_left]
          rw [length_cons] at hlen
          have hgo := ih (alias_data.length - (found + (ch '%' :: t).length + 0)) (by rw [length_cons]; omega)
            (output ++ ((alias_data.drop lastfound).take skip ++ u) ++ x.value line) (by rw [length_cons]; omega)
            (by rw [hbehind]; exact hrs) rfl
          rw [take_zero, append_nil] at hgo
          exact hgo
      · have hskip := fun x w q hw heq => hreference ⟨x, w, q, hw, heq⟩
        obtain ⟨rs, rfl, hrs⟩ := scan_letter hskip hqs
        have hbehind : alias_data.drop (found + 1) = p := by
          rw [← drop_drop, hdrop]
          rfl
        have hgo := ih (alias_data.length - (found + 1)) (by omega)
          (output ++ ((alias_data.drop lastfound).take skip ++ u)) (by omega) (by rw [hbehind]; exact hrs) rfl
        rw [hdrop] at hgo
        rw [parseToken_skip hdrop hskip]
        exact hgo

/-! ## `Imprint` -/

/-- **The text of an alias:** its references give tokens of the line, all else stays as it is, and what was put in is not read again;
it throws if the line lacks a token that is not optional. -/
theorem imprint_scan (a : CAlias) (line : CString) : ∃ ps, Scan (a.expandString a.getCommands) ps ∧
    (∀ qs, Scan (a.expandString a.getCommands) qs → qs = ps) ∧
    ((∃ e, a.imprint line = .error e) ↔ ∃ p ∈ ps, p.Lacking line) ∧
    ∀ output, a.imprint line = .ok output → output = ps.flatMap (Piece.text line) := by
  obtain ⟨ps, hps⟩ := scan_exists (a.expandString a.getCommands)
  have hrun : a.imprint line = ps.foldlM (emit line) [] := imprintLoop_eq line [] (Nat.zero_le _) hps
  obtain ⟨hthrows, htext⟩ := @foldlM_emit line ps []
  rw [hrun]
  exact ⟨ps, hps, fun qs hqs => scan_unique hps hqs, hthrows, htext⟩

/-- a token that is asked for, one that may be missing, and text that only looks like one -/
example : CAlias.imprint ⟨id, [lit "%1% %?9% 5% %2+% %%"]⟩ (lit "a %1% c d") = .ok (lit "%1%  5% c d %%") := by decide +kernel

end ZNC.AliasImprint
