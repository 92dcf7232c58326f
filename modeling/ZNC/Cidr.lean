/-
Addresses against ranges of addresses: `CUtils::CheckCIDR` of `src/Utils.cpp` and `CString::WildCmp` of `src/ZNCString.cpp`.

Model: `Resolver` is `getaddrinfo` with AI_NUMERICHOST, for a family if one is given. An IPv4 address is its 32 bits in host order,
an IPv6 address its bytes.
-/
import ZNC.Escape

namespace ZNC

open CString

/-! ## `WildCmp` -/

/-- `while (*wild == '*') wild++;` and the test for the end -/
def onlyStars (wild : CString) : Bool := wild.dropWhile (· = ch '*') = []

/-- the second loop: `mp` and `cp` are where to go on after a mismatch -/
def wildLoop (wild p mp cp : CString) : Bool :=
  match p with
  | [] => onlyStars wild
  | c :: p' =>
    match wild with
    | [] => wildLoop mp cp mp cp.tail
    | w :: wild' =>
      if w = ch '*' then
        if wild' = [] then true else wildLoop wild' (c :: p') wild' p'
      else if w = c ∨ w = ch '?' then wildLoop wild' p' mp cp
      else wildLoop mp cp mp cp.tail
termination_by (max cp.length (p.length - 1), if p = [] then 0 else wild.length + 1)
decreasing_by
  · cases cp with
    | nil => simpa [Prod.lex_def] using p'.length.eq_zero_or_pos.symm.imp_right Eq.symm
    | cons b cp => simp [Prod.lex_def]
  · simp [Prod.lex_def]
    omega
  · cases p' with
    | nil => simp [Prod.lex_def]
    | cons b p' =>
      simp [Prod.lex_def]
      omega
  · cases cp with
    | nil => simpa [Prod.lex_def] using p'.length.eq_zero_or_pos.symm.imp_right Eq.symm
    | cons b cp => simp [Prod.lex_def]

/-- the first loop, up to the first star -/
def wildHead : CString → CString → Bool
  | wild, [] => onlyStars wild
  | [], _ :: _ => false
  | w :: wild, c :: p =>
    if w = ch '*' then wildLoop (w :: wild) (c :: p) [] []
    else if w ≠ c ∧ w ≠ ch '?' then false
    else wildHead wild p

namespace CString

def wildCmp (sWild sString : CString) : Bool := wildHead sWild.cStr sString.cStr

/-- `ToInt()`: `strtol` with its bounds, and the low 32 bits -/
def toInt (s : CString) : ℤ := Int.bmod (max (-2 ^ 63) (min (strtol s.cStr 10).1 (2 ^ 63 - 1))) (2 ^ 32)

end CString

/-! ## `CheckCIDR` -/

inductive AddressFamily where
  | AF_INET
  | AF_INET6
  | other (n : ℕ)
deriving DecidableEq, Repr

inductive SockAddr where
  | inet (sin_addr : UInt32)
  | inet6 (sin6_addr : Fin 16 → UInt8)
  | other (n : ℕ)

def SockAddr.ai_family : SockAddr → AddressFamily
  | .inet _ => .AF_INET
  | .inet6 _ => .AF_INET6
  | .other n => .other n

abbrev Resolver : Type := CString → Option AddressFamily → Option SockAddr

/-- the mask of IPv4, in host order -/
def inBitmask (iRoutingPrefix : ℕ) : UInt32 := 0xFFFFFFFF <<< UInt32.ofNat (32 - iRoutingPrefix)

/-- the byte `i` of the mask of IPv6 -/
def in6aBitmask (iRoutingPrefix : ℕ) (i : Fin 16) : UInt8 :=
  let iBitsLeft := iRoutingPrefix - 8 * i.val
  if 8 ≤ iBitsLeft then 0xFF else if 0 < iBitsLeft then 0xFF <<< UInt8.ofNat (8 - iBitsLeft) else 0

/-- host and range agree in the prefix; the resolver gives both in the same family -/
def inRange (iRoutingPrefix : ℕ) : SockAddr → SockAddr → Bool
  | .inet saHost, .inet saRange =>
    iRoutingPrefix ≤ 32 && inBitmask iRoutingPrefix &&& saHost = inBitmask iRoutingPrefix &&& saRange
  | .inet6 sa6Host, .inet6 sa6Range =>
    (List.finRange 16).all fun i =>
      in6aBitmask iRoutingPrefix i &&& sa6Host i = in6aBitmask iRoutingPrefix i &&& sa6Range i
  | _, _ => false

def checkCIDR (getaddrinfo : Resolver) (sIP sRange : CString) : Bool :=
  if CString.wildCmp sRange sIP then true
  else
    match sRange.split (ch '/') false with
    | [sFront, sRoutingPrefix] =>
      let iRoutingPrefix := sRoutingPrefix.toInt
      if iRoutingPrefix < 0 ∨ 128 < iRoutingPrefix then false
      else if iRoutingPrefix = 0 ∧ sRoutingPrefix ≠ lit "0" then false
      else
        match getaddrinfo sIP.cStr none with
        | none => false
        | some aiHost =>
          match getaddrinfo sFront.cStr (some aiHost.ai_family) with
          | none => false
          | some aiRange => if iRoutingPrefix = 0 then true else inRange iRoutingPrefix.toNat aiHost aiRange
    | _ => false

end ZNC
