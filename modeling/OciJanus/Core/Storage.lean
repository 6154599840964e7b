import OciJanus.Verified.GoStrings

/-!
# Blob storage as registry-core uses it

Every operation takes what goes wrong as an argument; a close that is answered with an error may
have stored the object (`Close.lost`).
-/

namespace OciJanus.Core.Storage

open Verified.Sha256 Verified.GoStrings Function

def keyRoots : List String := ["blobs/", "manifests/", "uploads/"]

inductive KeyError where
  | invalidArgument
  | permissionDenied
  deriving DecidableEq

def validateTenantKey (tenantID key : String) : Except KeyError Unit :=
  if tenantID = "" then .error .invalidArgument
  else if key = "" then .error .invalidArgument
  else if keyRoots.any fun root => hasPrefix key (root ++ tenantID ++ "/") then .ok ()
  else .error .permissionDenied

def UnderBlobs (tenantID key : String) : Prop :=
  hasPrefix key ("blobs/" ++ tenantID ++ "/") = true
  deriving Decidable

abbrev Objects := String → Option Bytes

inductive Close where
  | stored
  | refused
  | lost
  deriving DecidableEq

def closePut (o : Objects) (tenantID key : String) (sent : Bytes) (c : Close) : Bool × Objects :=
  match validateTenantKey tenantID key, c with
  | .error _, _ => (false, o)
  | .ok (), .stored => (true, update o key (some sent))
  | .ok (), .refused => (false, o)
  | .ok (), .lost => (false, update o key (some sent))

def deleteBlob (o : Objects) (tenantID key : String) (arrives : Bool) : Objects :=
  match validateTenantKey tenantID key with
  | .error _ => o
  | .ok () => if arrives then update o key none else o

structure Reader where
  pieces : List Bytes
  complete : Bool

def Reader.content (r : Reader) : Bytes := r.pieces.flatten

def Reader.messages (r : Reader) : List Bytes := r.pieces.filter (· ≠ [])

def getBlob (o : Objects) (tenantID key : String) (breaks : Option Nat) : Reader :=
  match validateTenantKey tenantID key, o key, breaks with
  | .ok (), some content, none => ⟨[content], true⟩
  | .ok (), some content, some n => ⟨[content.take n], false⟩
  | _, _, _ => ⟨[], false⟩

variable {o : Objects} {tenantID key : String}

theorem deleteBlob_ne (o : Objects) (tenantID : String) {k : String} (arrives : Bool)
    (hk : k ≠ key) : deleteBlob o tenantID key arrives k = o k := by
  unfold deleteBlob
  cases validateTenantKey tenantID key with
  | error e => rfl
  | ok _ =>
    by_cases ha : arrives
    · simp [ha, hk]
    · simp [ha]

theorem deleteBlob_update (o : Objects) {sent : Bytes} (arrives : Bool)
    (hvalid : validateTenantKey tenantID key = .ok ()) :
    deleteBlob (update o key (some sent)) tenantID key arrives key =
      if arrives then none else some sent := by
  cases arrives <;> simp [deleteBlob, hvalid]

end OciJanus.Core.Storage
