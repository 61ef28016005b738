/-
However a body delivers its bytes, reading the object gives the same: the bytes
where they are as many as declared and not too many, and otherwise the one
error.
-/
import StatementAnalyzer.Storage.S3ObjectStore
import Mathlib.Tactic.NormNum

namespace StatementAnalyzer

/-- A body that yields these bytes, at once or in chunks of any lengths. -/
inductive ObjectBody.Delivers : ObjectBody → List UInt8 → Prop
  | uint8Array (bytes : List UInt8) : Delivers (.uint8Array bytes) bytes
  | asyncIterable (chunks : List (List UInt8)) :
      Delivers (.asyncIterable ⟨chunks.map .uint8Array, none⟩) chunks.flatten
  | webStream (chunks : List (List UInt8))
      (cancel : Option (Except StorageError Unit)) :
      Delivers (.webStream ⟨⟨chunks.map .uint8Array, none⟩, cancel⟩)
        chunks.flatten

/-- The chunks of a body that is read in chunks. -/
def ObjectBody.chunks : ObjectBody → List BodyChunk
  | .uint8Array _ | .unsupported => []
  | .asyncIterable body => body.chunks
  | .webStream body => body.chunks

/-- How the reader is cancelled; only that of a web stream can be. -/
def ObjectBody.tooLarge : ObjectBody → Except StorageError Unit
  | .webStream body => body.tooLarge
  | _ => .ok ()

/-- What is accumulated after some of the chunks, where the loop gets there. -/
def ObjectBody.Accumulates (body : ObjectBody) (state : ReadState) : Prop :=
  ∃ read, read <+: body.chunks ∧
    readChunks body.tooLarge none .start read = .ok state

/-- The declared length is within the limit and that of the bytes. -/
def declares (contentLength : JsValue) (bytes : List UInt8) : Bool :=
  match contentLength with
  | .number n => 1 ≤ n && n ≤ 10485760 && (bytes.length : ℚ) = n
  | _ => false

/-- The total is that of the chunks, and within the limit. -/
structure ReadState.Bounded (state : ReadState) : Prop where
  total : state.totalLength = state.chunks.flatten.length
  limit : state.totalLength ≤ MAX_STATEMENT_IMAGE_BYTES

section Loop

variable {state state' : ReadState} {chunks : List BodyChunk}
variable {tooLarge : Except StorageError Unit} {failure : Option StorageError}

theorem readChunk_eq_ok {chunk : BodyChunk}
    (h : readChunk tooLarge state chunk = .ok state') :
    ∃ bytes, chunk = .uint8Array bytes ∧
      state.totalLength + bytes.length ≤ MAX_STATEMENT_IMAGE_BYTES ∧
      state' = ⟨state.chunks ++ [bytes], state.totalLength + bytes.length⟩ := by
  cases chunk with
  | unsupported => cases h
  | uint8Array bytes =>
      simp only [readChunk] at h
      by_cases hlarge :
          MAX_STATEMENT_IMAGE_BYTES < state.totalLength + bytes.length
      · rw [if_pos hlarge] at h
        cases tooLarge <;> cases h
      · rw [if_neg hlarge] at h
        cases h
        exact ⟨bytes, rfl, Nat.le_of_not_lt hlarge, rfl⟩

/-- Where the reader can be cancelled, there is one error. -/
theorem readChunk_eq_error {chunk : BodyChunk} {e : StorageError}
    (h : readChunk (.ok ()) state chunk = .error e) : e = invalidObject := by
  cases chunk with
  | unsupported =>
      cases h
      rfl
  | uint8Array bytes =>
      simp only [readChunk] at h
      split at h
      · cases h
        rfl
      · cases h

theorem readChunks_cons {chunk : BodyChunk}
    (h : readChunk tooLarge state chunk = .ok state') :
    readChunks tooLarge failure state (chunk :: chunks) =
      readChunks tooLarge failure state' chunks := by
  rw [readChunks, h]
  rfl

/-- A chunk is taken only within the limit. -/
theorem readChunk_bounded {chunk : BodyChunk} (hstate : state.Bounded)
    (h : readChunk tooLarge state chunk = .ok state') : state'.Bounded := by
  obtain ⟨bytes, rfl, hlimit, rfl⟩ := readChunk_eq_ok h
  exact ⟨by simp [hstate.total], hlimit⟩

theorem readChunks_bounded (hstate : state.Bounded)
    (h : readChunks tooLarge failure state chunks = .ok state') :
    state'.Bounded := by
  induction chunks generalizing state with
  | nil =>
      cases failure with
      | none =>
          cases h
          exact hstate
      | some error => cases h
  | cons chunk rest ih =>
      cases hnext : readChunk tooLarge state chunk with
      | error e =>
          rw [readChunks, hnext] at h
          cases h
      | ok next =>
          rw [readChunks_cons hnext] at h
          exact ih (readChunk_bounded hstate hnext) h

/-- A chunk that is not bytes is refused, if nothing is refused before it. -/
theorem readChunks_unsupported (hmem : BodyChunk.unsupported ∈ chunks) :
    readChunks (.ok ()) failure state chunks = .error invalidObject := by
  induction chunks generalizing state with
  | nil => cases hmem
  | cons chunk rest ih =>
      cases hchunk : readChunk (.ok ()) state chunk with
      | error e =>
          rw [readChunks, hchunk, readChunk_eq_error hchunk]
          rfl
      | ok next =>
          obtain ⟨bytes, rfl, -⟩ := readChunk_eq_ok hchunk
          rw [readChunks_cons hchunk]
          exact ih (by simpa using hmem)

/-- Chunks of bytes are accumulated up to the limit. -/
theorem readChunks_uint8Array (chunks : List (List UInt8))
    (hstate : state.totalLength ≤ MAX_STATEMENT_IMAGE_BYTES) :
    readChunks (.ok ()) none state (chunks.map .uint8Array) =
      if state.totalLength + chunks.flatten.length ≤ MAX_STATEMENT_IMAGE_BYTES
      then .ok ⟨state.chunks ++ chunks,
        state.totalLength + chunks.flatten.length⟩
      else .error invalidObject := by
  induction chunks generalizing state with
  | nil => simp [readChunks, hstate]
  | cons bytes rest ih =>
      rw [List.map_cons]
      by_cases hlarge :
          MAX_STATEMENT_IMAGE_BYTES < state.totalLength + bytes.length
      · have htotal : ¬state.totalLength + (bytes :: rest).flatten.length ≤
            MAX_STATEMENT_IMAGE_BYTES := by
          simp only [List.flatten_cons, List.length_append]
          omega
        rw [readChunks, readChunk, if_pos hlarge, if_neg htotal]
        rfl
      · have hchunk : readChunk (.ok ()) state (.uint8Array bytes) =
            .ok ⟨state.chunks ++ [bytes], state.totalLength + bytes.length⟩ := by
          rw [readChunk, if_neg hlarge]
        rw [readChunks_cons hchunk, ih (Nat.le_of_not_lt hlarge)]
        simp [Nat.add_assoc]

end Loop

/-- The part copied stays as it is, and the chunks fill the rest. -/
theorem copyChunks_eq (copied : List UInt8) (chunks : List (List UInt8)) :
    copyChunks (copied ++ List.replicate chunks.flatten.length 0)
      copied.length chunks = .ok (copied ++ chunks.flatten) := by
  induction chunks generalizing copied with
  | nil => simp [copyChunks]
  | cons chunk rest ih =>
      have hset : setBytes
          (copied ++ List.replicate (chunk :: rest).flatten.length 0) chunk
          copied.length =
          .ok ((copied ++ chunk) ++
            List.replicate rest.flatten.length 0) := by
        simp [setBytes, List.drop_append]
      have hrest := ih (copied ++ chunk)
      rw [List.length_append] at hrest
      rw [copyChunks, hset]
      simpa [bind, Except.bind] using hrest

theorem joinChunks_eq {state : ReadState} (h : state.Bounded) :
    joinChunks state = .ok state.chunks.flatten := by
  have hcopy := copyChunks_eq [] state.chunks
  simpa [joinChunks, h.total] using hcopy

theorem bounded_start : ReadState.start.Bounded :=
  ⟨rfl, Nat.zero_le _⟩

/-- Both loops, and what follows them. -/
theorem read_uint8Array (chunks : List (List UInt8)) :
    (readChunks (.ok ()) none .start (chunks.map .uint8Array) >>= joinChunks) =
      if chunks.flatten.length ≤ MAX_STATEMENT_IMAGE_BYTES
      then .ok chunks.flatten else .error invalidObject := by
  rw [readChunks_uint8Array chunks bounded_start.limit]
  by_cases hlimit : chunks.flatten.length ≤ MAX_STATEMENT_IMAGE_BYTES
  · have hbounded : ReadState.Bounded ⟨chunks, chunks.flatten.length⟩ :=
      ⟨rfl, hlimit⟩
    have hjoin := joinChunks_eq hbounded
    simp only [ReadState.start, List.nil_append, Nat.zero_add, if_pos hlimit]
    exact hjoin
  · simp only [ReadState.start, Nat.zero_add, if_neg hlimit]
    rfl

section Body

variable {body : ObjectBody} {bytes : List UInt8}

/-- One function of the bytes, for the three kinds of body. -/
theorem readObjectBody_eq (h : body.Delivers bytes)
    (hcancel : body.tooLarge = .ok ()) :
    readObjectBody body = if bytes.length ≤ MAX_STATEMENT_IMAGE_BYTES
      then .ok bytes else .error invalidObject := by
  cases h with
  | uint8Array =>
      rw [readObjectBody]
      by_cases hlimit : bytes.length ≤ MAX_STATEMENT_IMAGE_BYTES
      · rw [if_neg (Nat.not_lt.mpr hlimit), if_pos hlimit]
      · rw [if_pos (Nat.lt_of_not_le hlimit), if_neg hlimit]
  | asyncIterable chunks => exact read_uint8Array chunks
  | webStream chunks cancel =>
      rw [ObjectBody.tooLarge] at hcancel
      rw [readObjectBody, hcancel]
      exact read_uint8Array chunks

theorem readObjectBody_unsupported (hmem : .unsupported ∈ body.chunks)
    (hcancel : body.tooLarge = .ok ()) :
    readObjectBody body = .error invalidObject := by
  cases body with
  | uint8Array _ | unsupported => cases hmem
  | asyncIterable body =>
      rw [ObjectBody.chunks] at hmem
      rw [readObjectBody, readChunks_unsupported hmem]
      rfl
  | webStream body =>
      rw [ObjectBody.chunks] at hmem
      rw [ObjectBody.tooLarge] at hcancel
      rw [readObjectBody, hcancel, readChunks_unsupported hmem]
      rfl

variable {contentType : Option JsString} {contentLength : JsValue}

/-- A declared length that is not refused is compared with the bytes. -/
theorem declares_eq_true_iff : declares contentLength bytes = true ↔
    contentLengthRefused contentLength = false ∧
      bytes.length ≤ MAX_STATEMENT_IMAGE_BYTES ∧
      equalLength? bytes contentLength = some (bytes.length : Int) := by
  cases contentLength with
  | number n =>
      have hlimit : (MAX_STATEMENT_IMAGE_BYTES : ℚ) = 10485760 := by
        norm_num [MAX_STATEMENT_IMAGE_BYTES]
      simp only [declares, contentLengthRefused, equalLength?, hlimit,
        Bool.and_eq_true, decide_eq_true_eq, Bool.or_eq_false_iff,
        decide_eq_false_iff_not, not_lt]
      constructor
      · rintro ⟨⟨hlow, hhigh⟩, rfl⟩
        refine ⟨⟨hlow, hhigh⟩, ?_, by simp⟩
        rw [← hlimit] at hhigh
        exact_mod_cast hhigh
      · rintro ⟨hrange, -, hequal⟩
        split at hequal
        · rename_i hlength
          exact ⟨hrange, hlength⟩
        · cases hequal
  | nan => simp [declares, equalLength?]
  | infinity _ | undefined | null | boolean _ | string _ | array _
  | object _ => simp [declares, equalLength?]

theorem equalLength?_eq_some {n : Int}
    (h : equalLength? bytes contentLength = some n) : n = bytes.length := by
  cases contentLength with
  | number value =>
      simp only [equalLength?] at h
      split at h
      · rename_i hlength
        cases h
        rw [← hlength]
        simp
      · cases h
  | nan | infinity _ | undefined | null | boolean _ | string _ | array _
  | object _ => cases h

/-- The lengths are checked before the body is read, and compared after. -/
theorem downloadObject_eq (h : body.Delivers bytes)
    (hcancel : body.tooLarge = .ok ()) :
    downloadObject ⟨body, contentType, contentLength⟩ =
      if declares contentLength bytes
      then .ok ⟨contentType, bytes.length, bytes⟩ else .error invalidObject := by
  rw [downloadObject, readObjectBody_eq h hcancel]
  by_cases hdeclares : declares contentLength bytes = true
  · obtain ⟨hrefused, hlimit, hequal⟩ := declares_eq_true_iff.mp hdeclares
    simp only [hrefused, hlimit, hdeclares, if_true, bind, Except.bind,
      compareLength, hequal]
    rfl
  · rw [if_neg hdeclares]
    by_cases hrefused : contentLengthRefused contentLength = true
    · rw [if_pos hrefused]
    · rw [if_neg hrefused]
      by_cases hlimit : bytes.length ≤ MAX_STATEMENT_IMAGE_BYTES
      · have hequal : equalLength? bytes contentLength = none := by
          rw [Option.eq_none_iff_forall_ne_some]
          intro n hn
          rw [equalLength?_eq_some hn] at hn
          rw [Bool.not_eq_true] at hrefused
          exact hdeclares (declares_eq_true_iff.mpr ⟨hrefused, hlimit, hn⟩)
        simp only [hlimit, if_true, bind, Except.bind, compareLength, hequal]
      · simp only [hlimit, if_false]
        rfl

theorem downloadObject_unsupported (hmem : .unsupported ∈ body.chunks)
    (hcancel : body.tooLarge = .ok ()) :
    downloadObject ⟨body, contentType, contentLength⟩ =
      .error invalidObject := by
  rw [downloadObject, readObjectBody_unsupported hmem hcancel]
  by_cases hrefused : contentLengthRefused contentLength = true
  · rw [if_pos hrefused]
  · rw [if_neg hrefused]
    rfl

theorem accumulates_bounded {state : ReadState} (h : body.Accumulates state) :
    state.Bounded := by
  obtain ⟨read, _, hread⟩ := h
  exact readChunks_bounded bounded_start hread

end Body

namespace S3ObjectStore

variable {output : GetObjectOutput}

theorem getObject_ok {object : DownloadedObject}
    (h : downloadObject output = .ok object) :
    getObject (.ok output) = .ok object := by
  simp only [getObject, bind, Except.bind, h]

/-- The error keeps its class: S3 would name it otherwise. -/
theorem getObject_invalid (h : downloadObject output = .error invalidObject) :
    getObject (.ok output) = .error invalidSourceObjectError := by
  simp only [getObject, bind, Except.bind, h]
  exact if_neg (by decide)

/-- Bounded reading is independent of the delivery. -/
theorem getObject_boundedReading (body : ObjectBody)
    (hcancel : body.tooLarge = .ok ()) (contentType : Option JsString)
    (contentLength : JsValue) :
    (∀ bytes, body.Delivers bytes →
      getObject (.ok ⟨body, contentType, contentLength⟩) =
        if declares contentLength bytes
        then .ok ⟨contentType, bytes.length, bytes⟩
        else .error invalidSourceObjectError) ∧
    (.unsupported ∈ body.chunks →
      getObject (.ok ⟨body, contentType, contentLength⟩) =
        .error invalidSourceObjectError) ∧
    ∀ state, body.Accumulates state →
      (state.chunks.map List.length).sum ≤ 10485760 := by
  refine ⟨fun bytes hdelivers => ?_, fun hmem => ?_, fun state hstate => ?_⟩
  · have hdownload :
        downloadObject ⟨body, contentType, contentLength⟩ = _ :=
      downloadObject_eq hdelivers hcancel
    by_cases hdeclares : declares contentLength bytes = true
    · rw [if_pos hdeclares] at hdownload ⊢
      exact getObject_ok hdownload
    · rw [if_neg hdeclares] at hdownload ⊢
      exact getObject_invalid hdownload
  · exact getObject_invalid (downloadObject_unsupported hmem hcancel)
  · have hbounded := accumulates_bounded hstate
    have htotal := hbounded.total
    have hlimit := hbounded.limit
    rw [List.length_flatten] at htotal
    rw [MAX_STATEMENT_IMAGE_BYTES] at hlimit
    omega

/-- Four bytes in two chunks and an empty one, from a web stream. -/
theorem getObject_boundedReading_webStream :
    getObject (.ok ⟨.webStream ⟨⟨[.uint8Array [1, 2], .uint8Array [],
      .uint8Array [3, 4]], none⟩, some (.ok ())⟩, none, .number 4⟩) =
        .ok ⟨none, 4, [1, 2, 3, 4]⟩ := by
  have hread := (getObject_boundedReading (.webStream ⟨⟨[[1, 2], [],
    [3, 4]].map .uint8Array, none⟩, some (.ok ())⟩) rfl none (.number 4)).1 _
      (.webStream [[1, 2], [], [3, 4]] _)
  rw [if_pos (by decide +kernel)] at hread
  exact hread

end S3ObjectStore

end StatementAnalyzer
