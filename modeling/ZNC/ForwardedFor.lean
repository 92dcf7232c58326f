/-
The address of a web client: `X-Forwarded-For` in `CHTTPSock::ReadLine` and `GetRemoteIP` of `src/HTTPSock.cpp`.

The header says for whom each proxy asked, in order; the connection itself comes from the last one. An entry is believed as far
as the hop behind it is a trusted proxy.

Results:
- `forwarded_eq`: the loop finds the last address that is not trusted;
- `forwarded_spec`: the address, and that nothing in front of an untrusted hop has an influence on it;
- `forwarded_two_lines`: a second line of the header is not looked at.

Model: `Request` is what the socket and ZNC know: the peer, the proxies and the resolver; a line comes with what `OnLogin` would
answer to it. Of the other headers only what ends the header is kept.
-/
import ZNC.Cidr
import ZNC.Config

namespace ZNC.ForwardedFor

open CString

/-! ## Model -/

/-- what one request depends on besides its lines -/
structure Request where
  /-- `CSocket::GetRemoteIP()` -/
  sPeerIP : CString
  vsTrustedProxies : VCString
  getaddrinfo : Resolver

/-- a line, and what `OnLogin` answers if it is asked -/
structure Line where
  sData : CString
  bLogin : Bool

structure CHTTPSock where
  bGotHeader : Bool
  bBasicAuth : Bool
  bLoggedIn : Bool
  sForwardedIP : CString

/-- `bTrusted`: one of the proxies -/
def Request.isTrusted (r : Request) (sIP : CString) : Bool :=
  r.vsTrustedProxies.any fun sTrustedProxy => checkCIDR r.getaddrinfo sIP sTrustedProxy

/-- the loop over `vsIPs`, which is given last entry first -/
def walk (r : Request) (sIP : CString) : List CString → CString
  | [] => sIP
  | back :: vsIPs => if r.isTrusted sIP then walk r back vsIPs else sIP

namespace Line

def sLine (l : Line) : CString := l.sData.trimRight_n (lit "\r\n")

def sName (l : Line) : CString := l.sLine.token 0 false (ch ' ') false

/-- the entries of the header -/
def vsIPs (l : Line) : VCString := ((l.sLine.token 1 true (ch ' ') false).split (ch ',') false).map Config.trim

end Line

namespace CHTTPSock

def init : CHTTPSock := ⟨false, false, false, []⟩

def getRemoteIP (s : CHTTPSock) (r : Request) : CString := if s.sForwardedIP ≠ [] then s.sForwardedIP else r.sPeerIP

/-- `ReadLine`, as far as the header and its end go -/
def readLine (r : Request) (s : CHTTPSock) (l : Line) : CHTTPSock :=
  if s.bGotHeader then s
  else if l.sName.equals (lit "Authorization:") then { s with bBasicAuth := true }
  else if l.sName.equals (lit "X-Forwarded-For:") then
    if s.sForwardedIP = [] then { s with sForwardedIP := walk r (s.getRemoteIP r) l.vsIPs.reverse } else s
  else if l.sLine = [] then
    if s.bBasicAuth && !s.bLoggedIn then { s with bLoggedIn := l.bLogin } else { s with bGotHeader := true }
  else s

def run (r : Request) (s : CHTTPSock) (lines : List Line) : CHTTPSock := lines.foldl (readLine r) s

end CHTTPSock

open CHTTPSock

/-! ## What is meant -/

/-- the last address that is not trusted; the first one if all are -/
def lastUntrusted (trusted : CString → Bool) (addresses : List CString) : CString :=
  (addresses.reverse.find? fun sIP => !trusted sIP).getD (addresses.headD [])

/-- the lines up to the end of the header -/
def header (r : Request) (s : CHTTPSock) : List Line → List Line
  | [] => []
  | l :: lines => if s.bGotHeader then [] else l :: header r (readLine r s l) lines

/-- the lists of the `X-Forwarded-For` lines of the header, in order -/
def forwardedLists (r : Request) (s : CHTTPSock) (lines : List Line) : List VCString :=
  ((header r s lines).filter fun l => l.sName.equals (lit "X-Forwarded-For:")).map Line.vsIPs

/-- the address a list names for a connection from the peer -/
def address (r : Request) (vsIPs : VCString) : CString := lastUntrusted r.isTrusted (vsIPs ++ [r.sPeerIP])

/-! ## The loop -/

variable (r : Request)

theorem walk_eq (sIP : CString) (l : List CString) :
    walk r sIP l = lastUntrusted r.isTrusted (l.reverse ++ [sIP]) := by
  induction l generalizing sIP with
  | nil =>
    cases h : r.isTrusted sIP <;> simp [walk, lastUntrusted, h]
  | cons back l ih =>
    rw [walk]
    cases h : r.isTrusted sIP with
    | false => simp [lastUntrusted, h]
    | true =>
      rw [if_pos rfl, ih]
      have hhead : ((back :: l).reverse ++ [sIP]).headD [] = (l.reverse ++ [back]).headD [] := by
        cases hl : l.reverse <;> simp [hl]
      simp only [lastUntrusted, hhead]
      simp [h]

theorem forwarded_eq (l : Line) : walk r r.sPeerIP l.vsIPs.reverse = address r l.vsIPs := by
  rw [walk_eq, List.reverse_reverse, address]

theorem lastUntrusted_append {trusted : CString → Bool} {sHop : CString} {right : List CString}
    (hhop : trusted sHop = false)
    (hright : ∀ sIP ∈ right, trusted sIP = true) (left : List CString) :
    lastUntrusted trusted (left ++ sHop :: right) = sHop := by
  have hnone : right.reverse.find? (fun sIP => !trusted sIP) = none := by
    refine List.find?_eq_none.2 fun sIP hmem => ?_
    simp [hright sIP (List.mem_reverse.1 hmem)]
  have hrev : (left ++ sHop :: right).reverse = right.reverse ++ (sHop :: left.reverse) := by simp
  rw [lastUntrusted, hrev, List.find?_append, hnone]
  simp [hhop]

/-! ## Runs -/

theorem readLine_of_gotHeader {r : Request} {s : CHTTPSock} (h : s.bGotHeader = true) (l : Line) :
    readLine r s l = s := by
  rw [readLine, if_pos h]

theorem run_of_gotHeader {r : Request} {s : CHTTPSock} (h : s.bGotHeader = true) (lines : List Line) :
    run r s lines = s := by
  induction lines with
  | nil => rfl
  | cons l lines ih =>
    rw [run, List.foldl_cons, readLine_of_gotHeader h]
    exact ih

/-- **One line** of the header: its address, if it is the first one -/
theorem readLine_forwarded {r : Request} {s : CHTTPSock} (h : s.bGotHeader = false) (l : Line) :
    (readLine r s l).sForwardedIP =
      if l.sName.equals (lit "X-Forwarded-For:") ∧ s.sForwardedIP = [] then address r l.vsIPs else s.sForwardedIP := by
  rw [readLine, if_neg (by simp [h])]
  by_cases hname : l.sName.equals (lit "X-Forwarded-For:") = true
  · have hauth : ¬l.sName.equals (lit "Authorization:") = true := by
      rw [equals_congr hname]
      decide
    rw [if_neg hauth, if_pos hname]
    by_cases hempty : s.sForwardedIP = []
    · have hpeer : s.getRemoteIP r = r.sPeerIP := by simp [getRemoteIP, hempty]
      simp only [hname, hempty, and_self, if_true, hpeer, forwarded_eq]
    · simp only [hempty, and_false, if_false]
  · have hno : ¬(l.sName.equals (lit "X-Forwarded-For:") = true ∧ s.sForwardedIP = []) := fun h => hname h.1
    rw [if_neg hname, if_neg hno]
    repeat' split
    all_goals rfl

theorem run_forwarded (lines : List Line) (s : CHTTPSock) :
    (run r s lines).sForwardedIP =
      ((s.sForwardedIP :: (forwardedLists r s lines).map (address r)).find? fun sIP => sIP ≠ []).getD [] := by
  induction lines generalizing s with
  | nil => cases h : s.sForwardedIP <;> simp [run, forwardedLists, header, h]
  | cons l lines ih =>
    cases hgot : s.bGotHeader with
    | true =>
      rw [run_of_gotHeader hgot]
      cases s.sForwardedIP <;> simp [forwardedLists, header, hgot]
    | false =>
      have hrun : run r s (l :: lines) = run r (readLine r s l) lines := rfl
      rw [hrun, ih, readLine_forwarded hgot]
      have hlists : forwardedLists r s (l :: lines) =
          (if l.sName.equals (lit "X-Forwarded-For:") then [l.vsIPs] else []) ++
            forwardedLists r (readLine r s l) lines := by
        rw [forwardedLists, header, hgot, if_neg Bool.false_ne_true, List.filter_cons]
        split <;> rfl
      rw [hlists]
      by_cases hname : l.sName.equals (lit "X-Forwarded-For:") = true
      · by_cases hempty : s.sForwardedIP = []
        · simp [hname, hempty]
        · simp [hname, hempty]
      · simp [hname]

/-- **What is reported:** the address of the first `X-Forwarded-For` line that has one, else the peer. -/
theorem getRemoteIP_eq (lines : List Line) :
    (run r .init lines).getRemoteIP r =
      (((forwardedLists r .init lines).map (address r)).find? fun sIP => sIP ≠ []).getD r.sPeerIP := by
  rw [getRemoteIP, run_forwarded]
  have hinit : CHTTPSock.init.sForwardedIP = [] := rfl
  rw [hinit, List.find?_cons_of_neg (by simp)]
  rcases hfind : ((forwardedLists r .init lines).map (address r)).find? fun sIP => sIP ≠ [] with _ | sIP
  · rfl
  · have hne : sIP ≠ [] := by simpa using List.find?_some hfind
    rw [Option.getD_some, Option.getD_some, if_pos hne]

theorem getRemoteIP_hop {r : Request} {lines : List Line} {vsIPs left right : VCString}
    {rest : List VCString} {sHop : CString}
    (hlists : forwardedLists r .init lines = vsIPs :: rest) (hsplit : vsIPs ++ [r.sPeerIP] = left ++ sHop :: right)
    (hne : sHop ≠ []) (hhop : r.isTrusted sHop = false) (hright : ∀ sIP ∈ right, r.isTrusted sIP = true) :
    (run r .init lines).getRemoteIP r = sHop := by
  have haddress : address r vsIPs = sHop := by
    rw [address, hsplit]
    exact lastUntrusted_append hhop hright left
  rw [getRemoteIP_eq, hlists, List.map_cons, haddress, List.find?_cons_of_pos (by simpa using hne), Option.getD_some]

/-- **The address of a request.** It is that of the first line of the header that names one, and two requests whose first lines
agree from an untrusted hop on have the same. -/
theorem forwarded_spec (r : Request) (lines lines' : List Line) :
    (run r .init lines).getRemoteIP r =
        (((forwardedLists r .init lines).map (address r)).find? fun sIP => sIP ≠ []).getD r.sPeerIP ∧
      ∀ vsIPs vsIPs' rest rest' left left' sHop right, forwardedLists r .init lines = vsIPs :: rest →
        forwardedLists r .init lines' = vsIPs' :: rest' → vsIPs ++ [r.sPeerIP] = left ++ sHop :: right →
        vsIPs' ++ [r.sPeerIP] = left' ++ sHop :: right → sHop ≠ [] → r.isTrusted sHop = false →
        (∀ sIP ∈ right, r.isTrusted sIP = true) →
        (run r .init lines).getRemoteIP r = sHop ∧ (run r .init lines').getRemoteIP r = sHop := by
  refine ⟨getRemoteIP_eq r lines, ?_⟩
  intro vsIPs vsIPs' rest rest' left left' sHop right h h' hsplit hsplit' hne hhop hright
  exact ⟨getRemoteIP_hop h hsplit hne hhop hright, getRemoteIP_hop h' hsplit' hne hhop hright⟩

/-- a connection from a proxy on the same host -/
def local127 : Request := ⟨lit "127.0.0.1", [lit "127.0.0.1"], fun _ _ => none⟩

def xff (sList : String) : Line := ⟨lit "X-Forwarded-For: " ++ lit sList, false⟩

/-- two claims about who is behind the same untrusted hop -/
theorem forwarded_spec_sample :
    (run local127 .init [xff "1.1.1.1, 9.9.9.9"]).getRemoteIP local127 = lit "9.9.9.9" ∧
      (run local127 .init [xff "9.9.9.9", xff "2.2.2.2"]).getRemoteIP local127 = lit "9.9.9.9" :=
  (forwarded_spec local127 [xff "1.1.1.1, 9.9.9.9"] [xff "9.9.9.9", xff "2.2.2.2"]).2 [lit "1.1.1.1", lit "9.9.9.9"]
    [lit "9.9.9.9"] [] [[lit "2.2.2.2"]] [lit "1.1.1.1"] [] (lit "9.9.9.9") [lit "127.0.0.1"] (by decide)
    (by decide) (by decide) (by decide) (by decide) (by decide) (by decide)

/-- the last address of both lines is not trusted, but the first line decides -/
theorem forwarded_two_lines :
    (run local127 .init [xff "6.6.6.6", xff "9.9.9.9"]).getRemoteIP local127 ≠
      lastUntrusted local127.isTrusted
        ((forwardedLists local127 .init [xff "6.6.6.6", xff "9.9.9.9"]).flatten ++ [local127.sPeerIP]) := by
  decide

end ZNC.ForwardedFor
