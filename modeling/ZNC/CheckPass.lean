/-
The password of a user: `CUser::CheckPass` and `SetPass` of `src/User.cpp`, with the salted hashes of `src/Utils.cpp`.

A login with the right password may hash it again: MD5 gives way to the default method, and SHA256 to Argon2id in a program
that is built with it. Hashing with Argon2id can fail. Then the hash is empty, and nothing is right from there on.

Model: the hash functions are parameters, and so is every salt. A run is any sequence of logins and new passwords.

- `works_step_iff`: what one step does to a password that is right;
- `password_works_iff`: the runs in which the last right one always stays right.
-/
import ZNC.Lib.Runs
import ZNC.UserConfig

namespace ZNC.CheckPass

open UserConfig

/-! ## Model -/

/-- `argon2id_hash_encoded` of a password and a salt, if there is no error, and `argon2id_verify` of the C string of a hash -/
structure Argon where
  hash : CString → CString → Option CString
  verify : CString → CString → Bool

structure Argon.Sound (a : Argon) : Prop where
  verify_hash {sPass sSalt sOut : CString} (h : a.hash sPass sSalt = some sOut) : a.verify sOut.cStr sPass = true
  verify_nil (sPass : CString) : a.verify [] sPass = false

/-- a program: `CString::MD5`, `CString::SHA256`, and Argon2id where `ZNC_HAVE_ARGON` is on -/
structure Build where
  MD5 : CString → CString
  SHA256 : CString → CString
  argon : Option Argon

namespace Build

variable (b : Build)

def saltedMD5Hash (sPass sSalt : CString) : CString := b.MD5 (sPass ++ sSalt)

def saltedSHA256Hash (sPass sSalt : CString) : CString := b.SHA256 (sPass ++ sSalt)

def saltedHash (sPass sSalt : CString) : CString :=
  match b.argon with
  | some a => (a.hash sPass sSalt).getD []
  | none => b.saltedSHA256Hash sPass sSalt

def HASH_DEFAULT : EHashType := if b.argon.isSome then .HASH_ARGON2ID else .HASH_SHA256

def result (user : CUser) (sPass : CString) : Bool :=
  match user.eHashType with
  | .HASH_MD5 => user.sPass.equals (b.saltedMD5Hash sPass user.sPassSalt)
  | .HASH_SHA256 => user.sPass.equals (b.saltedSHA256Hash sPass user.sPassSalt)
  | .HASH_ARGON2ID => b.argon.any fun a => a.verify user.sPass.cStr sPass
  | .HASH_NONE => sPass = user.sPass

def upgrade (user : CUser) : Bool :=
  match user.eHashType with
  | .HASH_MD5 => true
  | .HASH_SHA256 => b.argon.isSome
  | .HASH_ARGON2ID | .HASH_NONE => false

/-- a password is hashed with a new salt -/
def rehash (user : CUser) (sPass sSalt : CString) : CUser :=
  user.setPass (b.saltedHash sPass sSalt) b.HASH_DEFAULT sSalt

/-- `bAuthOnlyViaModule` is that of the whole program, `sSalt` the salt if one is drawn -/
def checkPass (bAuthOnlyViaModule : Bool) (user : CUser) (sPass sSalt : CString) : Bool × CUser :=
  if user.bools .authOnlyViaModule || bAuthOnlyViaModule then (false, user)
  else (b.result user sPass, if b.result user sPass && b.upgrade user then b.rehash user sPass sSalt else user)

end Build

/-! ## Runs -/

inductive Event where
  | login (sPass sSalt : CString)
  | password (sPass sSalt : CString)
  | authOnlyViaModule (bUser : Bool) (bProgram : Bool)

/-- the password that was last set, or that was right in a login after that -/
structure St where
  user : CUser
  bAuthOnlyViaModule : Bool
  last : Option CString

def step (b : Build) (s : St) : Event → St
  | .login sPass sSalt =>
    let r := b.checkPass s.bAuthOnlyViaModule s.user sPass sSalt
    { s with user := r.2, last := if r.1 then some sPass else s.last }
  | .password sPass sSalt => { s with user := b.rehash s.user sPass sSalt, last := some sPass }
  | .authOnlyViaModule bUser bProgram =>
    { s with user := s.user.setBool .authOnlyViaModule bUser, bAuthOnlyViaModule := bProgram }

/-- the last password is right -/
def Works (b : Build) (s : St) : Prop := ∀ sPass ∈ s.last, b.result s.user sPass = true

/-- what is hashed with Argon2id is hashed without an error -/
def Hashes (b : Build) (s : St) : Event → Prop
  | .login sPass sSalt =>
    (b.checkPass s.bAuthOnlyViaModule s.user sPass sSalt).1 = true → b.upgrade s.user = true →
      ∀ a ∈ b.argon, a.hash sPass sSalt ≠ none
  | .password sPass sSalt => ∀ a ∈ b.argon, a.hash sPass sSalt ≠ none
  | .authOnlyViaModule _ _ => True

variable {b : Build}

theorem result_rehash_iff (hb : ∀ a ∈ b.argon, a.Sound) (user : CUser) (sPass sSalt : CString) :
    b.result (b.rehash user sPass sSalt) sPass = true ↔ ∀ a ∈ b.argon, a.hash sPass sSalt ≠ none := by
  cases hargon : b.argon with
  | none => simp [Build.result, Build.rehash, Build.HASH_DEFAULT, Build.saltedHash, CUser.setPass, hargon]
  | some a =>
    have hsound := hb a hargon
    have hresult : b.result (b.rehash user sPass sSalt) sPass = a.verify ((a.hash sPass sSalt).getD []).cStr sPass := by
      simp [Build.result, Build.rehash, Build.HASH_DEFAULT, Build.saltedHash, CUser.setPass, hargon]
    rw [hresult]
    cases hhash : a.hash sPass sSalt with
    | none =>
      have hnil : a.verify (CString.cStr []) sPass = false := hsound.verify_nil sPass
      simp [hnil, hhash]
    | some sOut => simp [hsound.verify_hash hhash, hhash]

theorem works_step_iff (hb : ∀ a ∈ b.argon, a.Sound) {s : St} (h : Works b s) (ev : Event) :
    Works b (step b s ev) ↔ Hashes b s ev := by
  cases ev with
  | login sPass sSalt =>
    by_cases honly : (s.user.bools .authOnlyViaModule || s.bAuthOnlyViaModule) = true
    · simpa [step, Hashes, Build.checkPass, honly] using h
    · cases hresult : b.result s.user sPass with
      | false => simpa [step, Hashes, Build.checkPass, honly, hresult] using h
      | true =>
        cases hupgrade : b.upgrade s.user with
        | false => simp [step, Works, Hashes, Build.checkPass, honly, hresult, hupgrade]
        | true =>
          rw [Hashes, ← result_rehash_iff hb s.user]
          simp [step, Works, Build.checkPass, honly, hresult, hupgrade]
  | password sPass sSalt =>
    rw [Hashes, ← result_rehash_iff hb s.user]
    simp [step, Works]
  | authOnlyViaModule bUser bProgram => exact iff_of_true h trivial

/-- **Nobody is locked out** by a login or a new password: the last password that was right, or was set, is right in every
state of a run, exactly if no hashing with Argon2id in the run fails. -/
theorem password_works_iff (b : Build) (hb : ∀ a ∈ b.argon, a.Sound) (user : CUser) (bAuthOnlyViaModule : Bool)
    (events : List Event) :
    Runs.States (step b) (Works b) events ⟨user, bAuthOnlyViaModule, none⟩ ↔
      Runs.Steps (step b) (Hashes b) events ⟨user, bAuthOnlyViaModule, none⟩ := by
  have htrue : Runs.Steps (step b) (fun _ _ => True) events ⟨user, bAuthOnlyViaModule, none⟩ :=
    Runs.steps_iff.2 fun _ _ _ _ => trivial
  have hstart : Works b ⟨user, bAuthOnlyViaModule, none⟩ := fun _ h => absurd h (by simp)
  refine (and_iff_left htrue).symm.trans (Runs.keeps_iff (fun _ h => h) ?_ ?_ events hstart htrue)
  · exact fun s ev h _ hhashes => ⟨(works_step_iff hb h ev).2 hhashes, trivial⟩
  · exact fun s ev h _ hworks _ => (works_step_iff hb h ev).1 hworks

/-- a program with hashes that tell all passwords apart; Argon2id needs a salt of eight bytes -/
def sample : Build := ⟨id, id, some ⟨fun sPass sSalt => if sSalt.length < 8 then none else some (ch '$' :: sPass),
  fun sHash sPass => sHash == CString.cStr (ch '$' :: sPass)⟩⟩

theorem password_works_sample :
    Runs.States (step sample) (Works sample) [.login (lit "pass") (lit "0123456789"), .login (lit "word") (lit "0")]
      ⟨(CUser.new (lit "me")).setPass (lit "passsalt") .HASH_MD5 (lit "salt"), false, none⟩ := by
  have hsound : ∀ a ∈ sample.argon, a.Sound := by
    rintro a ⟨⟩
    refine ⟨fun h => ?_, fun sPass => beq_false_of_ne (List.cons_ne_nil _ _).symm⟩
    dsimp only at h ⊢
    split at h
    · cases h
    · cases h
      exact beq_self_eq_true _
  refine (password_works_iff sample hsound _ false _).2 ⟨?_, ?_, trivial⟩
  · rintro - - a ⟨⟩
    decide
  · intro hresult
    exact absurd hresult (by decide)

end ZNC.CheckPass
