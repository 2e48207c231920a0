import TrafficCop.Tls.Storage

/-!
# Saving the ACME storage

`StorageManager::save` and the three methods that call it (`tls/acme/storage.rs`). What the file
system does is given with the call; `serde_json` is a parameter.

Nothing takes the change in memory back.
-/

namespace TrafficCop

open Rust

structure AcmeAccount where
  url : Text
  privateKeyPem : Text
  email : Text
  deriving Repr, DecidableEq

structure AcmeStorage where
  account : Option AcmeAccount := none
  certificates : Certificates := .empty

/-- The same account and certificates; the iteration of maps does not matter. -/
def AcmeStorage.Same (data data' : AcmeStorage) : Prop :=
  data.account = data'.account ∧
    ∀ domain, data.certificates.get domain = data'.certificates.get domain

/-- The files at the path and at the temporary path. -/
structure AcmeFiles where
  file : Option (List UInt8) := none
  temp : Option (List UInt8) := none
  deriving Repr, DecidableEq

/-- How the steps of a save end; `written` bytes reach the temporary file, as an error in the last
flush is not reported. -/
structure SaveIo where
  createDirAll : Bool
  create : Bool
  toWriter : Bool
  written : ℕ
  rename : Bool

/-- `struct StorageManager`, with the files. -/
structure StorageManager where
  data : AcmeStorage := {}
  files : AcmeFiles := {}

namespace StorageManager

section Calls

variable (toJson : AcmeStorage → List UInt8) (m : StorageManager) (io : SaveIo)

/-- The data go to a temporary file that is renamed at the end, so a failed save leaves the file as
it was. -/
def save : StorageManager × Except Text Unit :=
  if io.createDirAll = false then (m, .error "Failed to create storage directory")
  else if io.create = false then (m, .error "Failed to create temp storage file")
  else
    let temp := some ((toJson m.data).take io.written)
    if io.toWriter = false then
      ({ m with files.temp := temp }, .error "Failed to serialize storage")
    else if io.rename = false then
      ({ m with files.temp := temp }, .error "Failed to rename temp storage file")
    else ({ m with files := ⟨temp, none⟩ }, .ok ())

def setAccount (account : AcmeAccount) : StorageManager × Except Text Unit :=
  save toJson { m with data.account := some account } io

def storeCertificate (cert : StoredCertificate) : StorageManager × Except Text Unit :=
  save toJson { m with data.certificates := m.data.certificates.storeCertificate cert } io

def removeCertificate (domain : Text) : StorageManager × Except Text Unit :=
  save toJson { m with data.certificates := m.data.certificates.erase domain } io

/-- The methods that save. -/
inductive Call where
  | setAccount (account : AcmeAccount)
  | storeCertificate (cert : StoredCertificate)
  | removeCertificate (domain : Text)

/-- Each changes the data in memory, lets go of the lock and then saves. -/
def call : Call → StorageManager × Except Text Unit
  | .setAccount account => setAccount toJson m io account
  | .storeCertificate cert => storeCertificate toJson m io cert
  | .removeCertificate domain => removeCertificate toJson m io domain

end Calls

/-- What a call makes of the data. -/
def Call.change (data : AcmeStorage) : Call → AcmeStorage
  | .setAccount account => { data with account := some account }
  | .storeCertificate cert => { data with certificates := data.certificates.storeCertificate cert }
  | .removeCertificate domain => { data with certificates := data.certificates.erase domain }

/-- The data are already what the call is to make of them. -/
def Call.Idle (data : AcmeStorage) : Call → Prop
  | .setAccount account => data.account = some account
  | .storeCertificate cert => data.certificates.get cert.domain = some cert
  | .removeCertificate domain => data.certificates.get domain = none

/-- The file can be read, and has the data in memory. -/
def Agrees (fromJson : List UInt8 → Option AcmeStorage) (m : StorageManager) : Prop :=
  ∃ data, m.files.file.bind fromJson = some data ∧ data.Same m.data

variable {toJson : AcmeStorage → List UInt8} {m : StorageManager} {io : SaveIo} {c : Call}

lemma save_of_error {e : Text} (h : (save toJson m io).2 = .error e) :
    (save toJson m io).1.data = m.data ∧ (save toJson m io).1.files.file = m.files.file := by
  revert h
  fun_cases save with
  | case5 =>
    intro h
    cases h
  | _ => exact fun _ => ⟨rfl, rfl⟩

lemma call_of_error {e : Text} (h : (call toJson m io c).2 = .error e) :
    (call toJson m io c).1.data = c.change m.data ∧
      (call toJson m io c).1.files.file = m.files.file := by
  cases c <;> exact save_of_error h

lemma change_same_iff (data : AcmeStorage) (c : Call) :
    (c.change data).Same data ↔ c.Idle data := by
  cases c with
  | setAccount account => exact (and_iff_left fun _ => rfl).trans eq_comm
  | storeCertificate cert =>
    refine (and_iff_right rfl).trans ⟨fun h => ?_, fun h domain => ?_⟩
    · exact (h cert.domain).symm.trans (HashMap.get_insert.trans (if_pos rfl))
    · refine HashMap.get_insert.trans ?_
      split
      · next heq => rw [heq, h]
      · rfl
  | removeCertificate removed =>
    refine (and_iff_right rfl).trans ⟨fun h => ?_, fun h domain => ?_⟩
    · exact (h removed).symm.trans (HashMap.get_erase.trans (if_pos rfl))
    · refine HashMap.get_erase.trans ?_
      split
      · next heq => rw [heq, h]
      · rfl

/-- **When a failed save leaves no trace**: the data in memory are the same as before, and the file
has them if it had them before, exactly if the call had nothing to change. -/
theorem failed_save_iff (toJson : AcmeStorage → List UInt8)
    (fromJson : List UInt8 → Option AcmeStorage) (m : StorageManager) (c : Call) :
    (∀ io e, (call toJson m io c).2 = .error e → (call toJson m io c).1.data.Same m.data ∧
      (m.Agrees fromJson → (call toJson m io c).1.Agrees fromJson)) ↔ c.Idle m.data := by
  rw [← change_same_iff]
  constructor
  · intro h
    have hfails : (call toJson m ⟨false, false, false, 0, false⟩ c).2 =
        .error "Failed to create storage directory" := by
      cases c <;> rfl
    rw [← (call_of_error hfails).1]
    exact (h _ _ hfails).1
  · intro h io e herror
    obtain ⟨hdata, hfile⟩ := call_of_error herror
    refine ⟨hdata ▸ h, fun hagrees => ?_⟩
    obtain ⟨data, hread, hsame⟩ := hagrees
    refine ⟨data, by rw [hfile, hread], ?_⟩
    rw [hdata]
    exact ⟨hsame.1.trans h.1.symm, fun domain => (hsame.2 domain).trans (h.2 domain).symm⟩

/-- A new account whose file cannot be renamed: it is in use until the next start. -/
theorem account_not_saved :
    let account : AcmeAccount := ⟨"https://ca/1", "key", "a@b"⟩
    let r := setAccount (fun _ => []) {} ⟨true, true, true, 0, false⟩ account
    r.2 = .error "Failed to rename temp storage file" ∧
      r.1.data.account = some account ∧ r.1.files.file = none :=
  ⟨rfl, rfl, rfl⟩

end StorageManager

end TrafficCop
