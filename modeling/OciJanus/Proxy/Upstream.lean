import OciJanus.Core.Storage

/-!
# The client of upstream registries

Both fetches read the body through an `io.LimitReader`, which ends a long body without an error.
-/

namespace OciJanus.Proxy.Upstream

open Core.Storage
open Verified.GoStrings (cut trimSpace)
open Verified.Sha256

structure Headers where
  contentType : String
  contentLength : Int
  (dockerContentDigest contentDigest : String)

inductive UpstreamReply where
  | failed
  | response (status : Nat) (headers : Headers) (body : Reader)

inductive FetchError where
  | notFound
  | other
  deriving DecidableEq

def limitPieces : Nat → List Bytes → List Bytes × Bool
  | 0, _ => ([], true)
  | _ + 1, [] => ([], false)
  | n + 1, p :: ps =>
    if n + 1 ≤ p.length then ([p.take (n + 1)], true)
    else
      let rest := limitPieces (n + 1 - p.length) ps
      (p :: rest.1, rest.2)

def limitReader (n : Nat) (r : Reader) : Reader :=
  let limited := limitPieces n r.pieces
  ⟨limited.1, limited.2 || r.complete⟩

theorem limitPieces_flatten (n : Nat) (ps : List Bytes) :
    (limitPieces n ps).1.flatten = ps.flatten.take n := by
  induction ps generalizing n with
  | nil => cases n <;> simp [limitPieces]
  | cons p ps ih =>
    cases n with
    | zero => simp [limitPieces]
    | succ n =>
      rw [limitPieces]
      split_ifs with hlen
      · simp [List.take_append_of_le_length hlen]
      · rw [List.flatten_cons, List.flatten_cons, List.take_append,
          List.take_of_length_le (by omega : p.length ≤ n + 1), ih]

theorem limitReader_content (n : Nat) (r : Reader) : (limitReader n r).content = r.content.take n :=
  limitPieces_flatten n r.pieces

theorem limitReader_complete (n : Nat) (r : Reader) :
    (limitReader n r).complete = true ↔ r.complete = true ∨ n ≤ r.content.length := by
  have hlimit : ∀ (n : Nat) (ps : List Bytes),
      (limitPieces n ps).2 = true ↔ n ≤ ps.flatten.length := by
    intro n ps
    induction ps generalizing n with
    | nil => cases n <;> simp [limitPieces]
    | cons p ps ih =>
      cases n with
      | zero => simp [limitPieces]
      | succ n =>
        rw [limitPieces, List.flatten_cons, List.length_append]
        split_ifs with hlen
        · exact iff_of_true rfl (by omega)
        · simp only [ih]
          omega
  unfold limitReader Reader.content
  rw [Bool.or_eq_true, hlimit, or_comm]

def okResponse : UpstreamReply → Except FetchError (Headers × Reader)
  | .failed => .error .other
  | .response status headers body =>
    if status = 404 then .error .notFound
    else if status ≠ 200 then .error .other
    else .ok (headers, body)

structure FetchedBlob where
  body : Reader
  size : Int
  contentType : String

def fetchBlob (maxBytes : Nat) (reply : UpstreamReply) : Except FetchError FetchedBlob :=
  match okResponse reply with
  | .error err => .error err
  | .ok (headers, body) =>
    .ok ⟨limitReader maxBytes body, headers.contentLength, headers.contentType⟩

theorem fetchBlob_ok {maxBytes : Nat} {reply : UpstreamReply} {blob : FetchedBlob}
    (h : fetchBlob maxBytes reply = .ok blob) : ∃ headers body,
      reply = .response 200 headers body ∧ blob.body = limitReader maxBytes body := by
  unfold fetchBlob okResponse at h
  cases reply with
  | failed => cases h
  | response status headers body =>
    by_cases hstatus : status = 200
    · subst hstatus
      cases h
      exact ⟨headers, body, rfl, rfl⟩
    · by_cases hmissing : status = 404 <;> simp [hstatus, hmissing] at h

def manifestCap : Nat := 4194304

structure ManifestResult where
  (digest mediaType : String)
  body : Bytes
  deriving DecidableEq

def mediaTypeOf (contentType : String) : String :=
  match cut ';' contentType with
  | some (mediaType, _) => trimSpace mediaType
  | none => contentType

def fetchManifest (reply : UpstreamReply) : Except FetchError ManifestResult :=
  match okResponse reply with
  | .error err => .error err
  | .ok (headers, body) =>
    let read := limitReader manifestCap body
    if !read.complete then .error .other
    else
      let digest :=
        if headers.dockerContentDigest = "" then headers.contentDigest
        else headers.dockerContentDigest
      .ok ⟨digest, mediaTypeOf headers.contentType, read.content⟩

end OciJanus.Proxy.Upstream
