import Mathlib.Data.List.Basic

/-!
# Streaming blobs into and out of storage

Every receive, write, read and close of `PutBlob` is one step; a write waits until its bytes are
read or the reading end is closed.
-/

namespace OciJanus.Storage.BlobStream

open List

abbrev Bytes := List UInt8

inductive Writer where
  | recv
  | writing (rest : Bytes)
  | sending (err : Bool)
  | closing
  | done

inductive Handler where
  | reading (got : Bytes)
  | put (err : Bool)
  | waiting (err : Bool)
  | answered (ok : Bool)

/-- The pipe between the goroutine that receives and the handler that stores. -/
structure State where
  incoming : List Bytes
  writer : Writer
  pipe : Option Bool
  readerClosed : Bool
  recvErrCh : Option Bool
  handler : Handler
  object : Option Bytes

inductive Action where
  | goroutine
  | read (n : Nat)
  | fail
  | handle

def step (broken : Bool) (s : State) : Action → Option State
  | .goroutine =>
    match s.writer, s.incoming with
    | .recv, [] => some { s with
        pipe := if broken then s.pipe.or (some true) else s.pipe, writer := .sending broken }
    | .recv, chunk :: rest => some { s with
        incoming := rest, writer := if chunk = [] then .recv else .writing chunk }
    | .writing _, _ => if s.readerClosed then some { s with writer := .sending true } else none
    | .sending err, _ => some { s with recvErrCh := some err, writer := .closing }
    | .closing, _ => some { s with pipe := s.pipe.or (some false), writer := .done }
    | .done, _ => none
  | .read n =>
    match s.handler, s.pipe, s.writer with
    | .reading got, none, .writing rest => some { s with
        handler := .reading (got ++ rest.take (n + 1))
        writer := if rest.drop (n + 1) = [] then .recv else .writing (rest.drop (n + 1)) }
    | .reading got, some false, _ => some { s with object := some got, handler := .put false }
    | .reading _, some true, _ => some { s with handler := .put true }
    | _, _, _ => none
  | .fail =>
    match s.handler with
    | .reading _ => some { s with handler := .put true }
    | _ => none
  | .handle =>
    match s.handler, s.recvErrCh with
    | .put err, _ => some { s with readerClosed := true, handler := .waiting err }
    | .waiting err, some recvErr => some { s with handler := .answered (!(err || recvErr)) }
    | _, _ => none

def start (chunks : List Bytes) (object : Option Bytes) : State :=
  ⟨chunks, .recv, none, false, none, .reading [], object⟩

def putBlob (chunks : List Bytes) (broken : Bool) (object : Option Bytes) (acts : List Action) :
    Option State :=
  acts.foldlM (step broken) (start chunks object)

def Writer.weight : Writer → Nat
  | .recv => 3
  | .writing rest => rest.length + 4
  | .sending _ => 2
  | .closing => 1
  | .done => 0

def Handler.weight : Handler → Nat
  | .reading _ => 3
  | .put _ => 2
  | .waiting _ => 1
  | .answered _ => 0

def weight : List Bytes → Nat
  | [] => 0
  | chunk :: rest => chunk.length + 2 + weight rest

def remaining (s : State) : Nat := weight s.incoming + s.writer.weight + s.handler.weight

section
variable (sent : Bytes) (broken : Bool) (old : Option Bytes)

def Flow (got : Bytes) (s : State) : Prop :=
  match s.writer with
  | .recv => got ++ s.incoming.flatten = sent
  | .writing rest => got ++ (rest ++ s.incoming.flatten) = sent
  | .sending false => broken = false ∧ got = sent ∧ s.pipe = none
  | .sending true => s.pipe = some true
  | .closing => s.pipe = some true ∨
      s.recvErrCh = some false ∧ broken = false ∧ got = sent ∧ s.pipe = none
  | .done => s.pipe = some true ∨
      s.recvErrCh = some false ∧ broken = false ∧ got = sent ∧ s.pipe = some false

def Told (s : State) : Prop :=
  match s.writer with
  | .recv => s.pipe = none
  | .writing rest => s.pipe = none ∧ rest ≠ []
  | .sending _ => True
  | .closing => s.recvErrCh ≠ none
  | .done => s.recvErrCh ≠ none ∧ s.pipe ≠ none

def Result (s : State) : Prop :=
  match s.handler with
  | .reading got => s.object = old ∧ s.readerClosed = false ∧ Flow sent broken got s
  | .put false => broken = false ∧ s.object = some sent ∧ s.writer = .done ∧
      s.recvErrCh = some false
  | .put true => s.object = old
  | .waiting false => s.readerClosed = true ∧ broken = false ∧ s.object = some sent ∧
      s.writer = .done ∧ s.recvErrCh = some false
  | .waiting true => s.readerClosed = true ∧ s.object = old
  | .answered true => broken = false ∧ s.object = some sent
  | .answered false => s.object = old

end

variable {sent : Bytes} {broken : Bool} {old : Option Bytes} {s s' : State} {a : Action}

theorem remaining_lt (h : step broken s a = some s') : remaining s' < remaining s := by
  obtain ⟨incoming, writer, pipe, readerClosed, recvErrCh, handler, object⟩ := s
  unfold step at h
  cases a <;> simp only at h <;> split at h <;>
    grind [remaining, weight, Writer.weight, Handler.weight, drop_eq_nil_iff]

theorem told_step (h : step broken s a = some s') (hs : Told s) : Told s' := by
  obtain ⟨incoming, writer, pipe, readerClosed, recvErrCh, handler, object⟩ := s
  unfold step at h
  cases a <;> simp only at h <;> split at h <;> grind [Told]

theorem result_step (h : step broken s a = some s') (htold : Told s)
    (hs : Result sent broken old s) : Result sent broken old s' := by
  obtain ⟨incoming, writer, pipe, readerClosed, recvErrCh, handler, object⟩ := s
  unfold step at h
  cases a with
  | read n =>
    simp only at h
    split at h
    · -- the bytes read move from the write to what the driver has
      rename_i got rest
      cases h
      obtain ⟨hobject, hopen, hflow⟩ := hs
      have hsplit : got ++ rest.take (n + 1) ++ (rest.drop (n + 1) ++ incoming.flatten) = sent := by
        rw [← hflow, append_assoc, ← append_assoc (rest.take _), take_append_drop]
      refine ⟨hobject, hopen, ?_⟩
      by_cases hdrop : rest.drop (n + 1) = []
      · simpa [Flow, hdrop] using hsplit
      · simpa [Flow, hdrop] using hsplit
    all_goals grind [Told, Result, Flow]
  | _ => simp only at h; split at h <;> grind [Told, Result, Flow]

theorem stuck_answered (htold : Told s) (hs : Result sent broken old s)
    (hstuck : ∀ a, a ≠ .fail → step broken s a = none) : ∃ ok, s.handler = .answered ok := by
  have hgoroutine := hstuck .goroutine (by simp)
  have hread := hstuck (.read 0) (by simp)
  have hhandle := hstuck .handle (by simp)
  obtain ⟨incoming, writer, pipe, readerClosed, recvErrCh, handler, object⟩ := s
  cases handler with
  | answered ok => exact ⟨ok, rfl⟩
  | put err => cases hhandle
  | reading got =>
    rcases pipe with _ | _ | _ <;> cases writer <;> cases incoming <;> simp_all [step, Told]
  | waiting err =>
    cases recvErrCh <;> cases err <;> cases writer <;> cases incoming <;>
      simp_all [step, Told, Result]

theorem run_kept {acts : List Action} (hrun : acts.foldlM (step broken) s = some s')
    (htold : Told s) (hs : Result sent broken old s) :
    Told s' ∧ Result sent broken old s' ∧ acts.length + remaining s' ≤ remaining s := by
  induction acts generalizing s with
  | nil =>
    cases hrun
    exact ⟨htold, hs, by simp⟩
  | cons a acts ih =>
    obtain ⟨t, hstep, hrest⟩ := Option.bind_eq_some_iff.mp hrun
    obtain ⟨htold', hs', hle⟩ := ih hrest (told_step hstep htold) (result_step hstep htold hs)
    have hlt := remaining_lt hstep
    exact ⟨htold', hs', by rw [length_cons]; omega⟩

def getBlob : List (Bytes × Bool) → List Bytes
  | [] => []
  | (data, eof) :: reads =>
    (if data = [] then [] else [data]) ++ if eof then [] else getBlob reads

def content : List (Bytes × Bool) → Bytes
  | [] => []
  | (data, eof) :: reads => data ++ if eof then [] else content reads

def read (n : Nat) : Bytes → List Bytes → Option (Bytes × Bytes × List Bytes)
  | [], [] => none
  | [], chunk :: stream => read n chunk stream
  | b :: buf, stream => some ((b :: buf).take n, (b :: buf).drop n, stream)

def readAll (size : Nat → Nat) : Nat → Nat → Bytes → List Bytes → Option Bytes
  | 0, _, _, _ => none
  | fuel + 1, i, buf, stream =>
    match read (size i) buf stream with
    | none => some []
    | some (out, buf, stream) => (readAll size fuel (i + 1) buf stream).map (out ++ ·)

theorem flatten_getBlob (reads : List (Bytes × Bool)) :
    (getBlob reads).flatten = content reads := by
  induction reads with
  | nil => rfl
  | cons r reads ih =>
    obtain ⟨data, eof⟩ := r
    cases eof <;> by_cases hdata : data = [] <;> simp [getBlob, content, hdata, ih]

theorem read_spec {n : Nat} (hn : 0 < n) (buf : Bytes) (stream : List Bytes) :
    match read n buf stream with
    | none => buf ++ stream.flatten = []
    | some (out, buf', stream') =>
      out ≠ [] ∧ out ++ (buf' ++ stream'.flatten) = buf ++ stream.flatten := by
  have htake : ∀ (b : UInt8) (buf tail : Bytes), (b :: buf).take n ≠ [] ∧
      (b :: buf).take n ++ ((b :: buf).drop n ++ tail) = b :: buf ++ tail := fun b buf tail =>
    ⟨by simp [Nat.pos_iff_ne_zero.mp hn], by rw [← append_assoc, take_append_drop]⟩
  induction stream generalizing buf with
  | nil =>
    cases buf with
    | nil => rfl
    | cons b buf => exact htake b buf _
  | cons chunk stream ih =>
    cases buf with
    | nil => simpa only [read, flatten_cons, nil_append] using ih chunk
    | cons b buf => exact htake b buf _

theorem readAll_eq {size : Nat → Nat} (hsize : ∀ i, 0 < size i) (fuel i : Nat) (buf : Bytes)
    (stream : List Bytes) (hfuel : (buf ++ stream.flatten).length < fuel) :
    readAll size fuel i buf stream = some (buf ++ stream.flatten) := by
  induction fuel generalizing i buf stream with
  | zero => exact absurd hfuel (Nat.not_lt_zero _)
  | succ fuel ih =>
    have hspec := read_spec (hsize i) buf stream
    rw [readAll]
    cases hread : read (size i) buf stream with
    | none =>
      simp only [hread] at hspec
      rw [hspec]
    | some r =>
      obtain ⟨out, buf', stream'⟩ := r
      simp only [hread] at hspec
      have hout := length_pos_iff.mpr hspec.1
      rw [← hspec.2, length_append] at hfuel
      simp only [ih (i + 1) buf' stream' (by omega), Option.map_some, hspec.2]

/-- **Blob streaming is faithful** under every schedule. -/
theorem blob_stream_faithful (chunks : List Bytes) (broken : Bool) (old : Option Bytes)
    (acts : List Action) (s : State) (hrun : putBlob chunks broken old acts = some s) :
    acts.length ≤ remaining (start chunks old) ∧
    ((∀ a, a ≠ .fail → step broken s a = none) → ∃ ok, s.handler = .answered ok) ∧
    (s.handler = .answered true → broken = false ∧ s.object = some chunks.flatten) ∧
    (s.handler = .answered false → s.object = old) ∧
    ∀ reads size, (∀ i, 0 < size i) →
      readAll size ((content reads).length + 1) 0 [] (getBlob reads) = some (content reads) := by
  obtain ⟨htold, hresult, hlength⟩ : Told s ∧ Result chunks.flatten broken old s ∧
      acts.length + remaining s ≤ remaining (start chunks old) := run_kept hrun rfl ⟨rfl, rfl, rfl⟩
  refine ⟨by omega, stuck_answered htold hresult, fun h => ?_, fun h => ?_, fun reads size h => ?_⟩
  · simpa [Result, h] using hresult
  · simpa [Result, h] using hresult
  · have hread := readAll_eq h ((content reads).length + 1) 0 [] (getBlob reads)
    rw [nil_append, flatten_getBlob] at hread
    exact hread (Nat.lt_succ_self _)

def interleaved : List Action :=
  [.goroutine, .read 0, .goroutine, .goroutine, .read 0, .read 5, .goroutine, .goroutine,
    .goroutine, .read 0, .handle, .handle]

theorem three_chunks_stored : ∃ s, putBlob [[1], [], [2, 3]] false none interleaved = some s ∧
    s.handler = .answered true ∧ s.object = some [1, 2, 3] :=
  ⟨_, rfl, rfl, ((blob_stream_faithful [[1], [], [2, 3]] false none interleaved _ rfl).2.2.1 rfl).2⟩

end OciJanus.Storage.BlobStream
