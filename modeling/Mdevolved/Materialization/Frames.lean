import Mdevolved.Lib.Json
import Mdevolved.Lib.Utf8
import Mdevolved.Materialization.Snapshot

/-!
# Staged Frames

How a snapshot is written to the object a job works through, and how a note is
read back from it. The object is one frame after another, each of them two
32-bit lengths, the metadata of a note as JSON and its content.

Reading checks more than writing promises. A frame's metadata may be at most
16 KiB and its file identifier may not be empty, while a snapshot takes any
identifier; and the decoder leaves out a byte order mark the content begins
with. `Stageable` is what a note needs for its frame to be read back as the
note itself: `frame_readsBack_iff` is that round trip, and says that no other note
makes it. A note whose content begins with a mark reads as another one
(`readFrame_frame`, which says which), and the rest are refused.

`staged_drop` says where frames lie: what stands at the offset of a note is
its frame, and the offsets add up to the size of the object.

## Main definitions

* `frame`, `stagedSnapshot`: The bytes of a note and of a snapshot.
* `readPrefix`, `readFrame`: Reading one frame in two steps.
* `Stageable`: A note whose frame reads back as the note.
* `offsetOf`: Where the frame after a number of notes begins.

## Theorems

* `readPrefix_frame`: The lengths of a frame are read back.
* `readFrame_frame`: The note of a frame is read back, without a leading mark.
* `readFrame_frame_of_empty`: A file without an identifier is refused.
* `frame_readsBack_iff`: Which notes are read back as themselves.
* `staged_drop`: What stands at the offset of a note.
-/

namespace Mdevolved.Materialization

open Mdevolved.Vault

def framePrefixBytes : Nat := 8

def maxFrameMetadataBytes : Nat := 16 * 1024

/-- Four bytes, the most significant first. -/
def uint32 (value : Nat) : List UInt8 :=
  [UInt8.ofNat (value / 2 ^ 24), UInt8.ofNat (value / 2 ^ 16), UInt8.ofNat (value / 2 ^ 8),
    UInt8.ofNat value]

/-- The number that four bytes stand for. -/
def getUint32 (bytes : List UInt8) : Nat :=
  bytes.foldl (fun n b => n * 256 + b.toNat) 0

/-- The metadata of a note, in the order its fields are written. -/
def stagedMetadata (note : MaterializedSnapshotNote) : Json :=
  .obj [
    ("byteLength", .num (Decimal.ofNat note.byteLength)),
    ("fileId", .str note.fileId),
    ("modifiedAt", match note.modifiedAt with
      | none => .null
      | some n => .num n),
    ("path", .str note.path),
    ("pathKey", .str note.pathKey),
    ("title", .str note.title)]

def metadataBytes (note : MaterializedSnapshotNote) : List UInt8 :=
  Utf8.encode (Json.stringify (stagedMetadata note))

/-- The frame of a note: the lengths of its two parts, then the parts. -/
def frame (note : MaterializedSnapshotNote) : List UInt8 :=
  uint32 (metadataBytes note).length ++ uint32 (Utf8.encode note.content).length ++
    (metadataBytes note ++ Utf8.encode note.content)

def stagedSnapshot (snapshot : MaterializedSnapshot) : List UInt8 :=
  snapshot.notes.flatMap frame

/-- What an object store returns for a range of an object: as much of it as is
    there. -/
def rangeOf (object : List UInt8) (offset length : Nat) : List UInt8 :=
  (object.drop offset).take length

/-- The bytes of a range, which has to be there in full. -/
def readExactRange (length : Nat) (range : Option (List UInt8)) :
    Except MaterializationErrorCode (List UInt8) :=
  match range with
  | none => .error .snapshotInvalid
  | some bytes => if bytes.length = length then .ok bytes else .error .snapshotInvalid

structure FramePrefix where
  metadataLength : Nat
  contentLength : Nat

/-- The lengths at the front of a frame, within their bounds and within the
    object. -/
def readPrefix (stagingObjectBytes offset : Nat) (bytes : List UInt8) :
    Except MaterializationErrorCode FramePrefix :=
  let metadataLength := getUint32 (bytes.take 4)
  let contentLength := getUint32 (bytes.drop 4)
  if metadataLength = 0 ∨ maxFrameMetadataBytes < metadataLength ∨
      maxMaterializedNoteBytes < contentLength ∨
      stagingObjectBytes < offset + framePrefixBytes + metadataLength + contentLength then
    .error .snapshotInvalid
  else .ok { metadataLength := metadataLength, contentLength := contentLength }

/-- A modification time: null or a number. A missing one is neither. -/
def readModifiedAt : Option Json → Option (Option Decimal)
  | some .null => some none
  | some (.num n) => some (some n)
  | _ => none

/-- The note of a frame's metadata and content. The path is validated again,
    and with it come its key and title. -/
def decodeFrame (u : UnicodeTables) (contentLength : Nat) (metadata : Json) (content : String) :
    Option MaterializedSnapshotNote :=
  match metadata.member "path", metadata.member "fileId", metadata.member "byteLength",
      readModifiedAt (metadata.member "modifiedAt") with
  | some (.str rawPath), some (.str fileId), some (.num byteLength), some modifiedAt =>
      if fileId = "" ∨ byteLength ≠ Decimal.ofNat contentLength then none
      else
        match validateMarkdownVaultPath u rawPath with
        | .error _ => none
        | .ok path =>
            some {
              byteLength := contentLength
              content := content
              fileId := fileId
              modifiedAt := modifiedAt
              path := path.path
              pathKey := path.pathKey
              title := path.title }
  | _, _, _, _ => none

/-- The note of a frame without its prefix; whatever is wrong with it, the
    snapshot is invalid. -/
def readFrame (u : UnicodeTables) (lengths : FramePrefix) (bytes : List UInt8) :
    Except MaterializationErrorCode MaterializedSnapshotNote :=
  match (Utf8.decode (bytes.take lengths.metadataLength)).bind Json.parse,
      Utf8.decode (bytes.drop lengths.metadataLength) with
  | some metadata, some content =>
      match decodeFrame u lengths.contentLength metadata content with
      | some note => .ok note
      | none => .error .snapshotInvalid
  | _, _ => .error .snapshotInvalid

/-- A note whose frame can be read back: its metadata fits, its file has an
    identifier and its content does not begin with a byte order mark. -/
structure Stageable (note : MaterializedSnapshotNote) : Prop where
  metadataFits : (metadataBytes note).length ≤ maxFrameMetadataBytes
  identified : note.fileId ≠ ""
  unmarked : note.content.toList.head? ≠ some Utf8.bom

/-- What of a note the validator and the bounds of a snapshot promise. -/
structure Framed (u : UnicodeTables) (note : MaterializedSnapshotNote) : Prop where
  validated : validateMarkdownVaultPath u note.path = .ok ⟨note.path, note.pathKey, note.title⟩
  sized : note.byteLength = note.content.utf8ByteSize
  bounded : note.byteLength ≤ maxMaterializedNoteBytes

section

variable (u : UnicodeTables) (note : MaterializedSnapshotNote)
  (notes : List MaterializedSnapshotNote) (count : Nat)

theorem snapshotted_framed (totalBytes : Nat) (h : Snapshotted u notes totalBytes) : ∀ n ∈ notes, Framed u n :=
  fun n hn =>
    { validated := h.validated n hn, sized := h.sized n hn, bounded := h.bounded n hn }

theorem length_uint32 (value : Nat) : (uint32 value).length = 4 := rfl

theorem getUint32_uint32 (value : Nat) (h : value < 2 ^ 32) :
    getUint32 (uint32 value) = value := by
  simp only [getUint32, uint32, List.foldl_cons, List.foldl_nil, UInt8.toNat_ofNat']
  omega

theorem length_frame : (frame note).length =
    framePrefixBytes + (metadataBytes note).length + (Utf8.encode note.content).length := by
  simp only [frame, List.length_append, length_uint32, framePrefixBytes]
  omega

theorem length_content (h : Framed u note) : (Utf8.encode note.content).length = note.byteLength := by
  rw [Utf8.length_encode, h.sized]

/-- The metadata is an object, so its text begins with a brace. -/
theorem stringify_metadata_head :
    (Json.stringify (stagedMetadata note)).toList.head? = some '{' := by
  rw [Json.stringify, String.toList_ofList, stagedMetadata, Json.toChars, List.head?_cons]

theorem metadataBytes_length_pos :
    0 < (metadataBytes note).length := by
  have hhead := stringify_metadata_head note
  have hne : Json.stringify (stagedMetadata note) ≠ "" := by
    intro hempty
    rw [hempty] at hhead
    cases hhead
  rw [metadataBytes, Utf8.length_encode]
  exact Nat.pos_of_ne_zero (fun hzero => hne (String.utf8ByteSize_eq_zero_iff.mp hzero))

/-- Metadata is read back as the JSON it was written from. -/
theorem decode_metadataBytes :
    (Utf8.decode (metadataBytes note)).bind Json.parse = some (stagedMetadata note) := by
  have hhead := stringify_metadata_head note
  have hunmarked : (Json.stringify (stagedMetadata note)).toList.head? ≠ some Utf8.bom := by
    rw [hhead]
    decide
  rw [metadataBytes, (Utf8.decode_encode_eq_self_iff _).mpr hunmarked, Option.bind_some,
    Json.parse_stringify]

theorem frame_take_prefix (rest : List UInt8) :
    (frame note ++ rest).take framePrefixBytes =
      uint32 (metadataBytes note).length ++ uint32 (Utf8.encode note.content).length := by
  rw [frame, List.append_assoc, List.take_append_of_le_length (by rfl)]
  exact List.take_of_length_le (by rfl)

theorem frame_drop_prefix (rest : List UInt8) :
    ((frame note ++ rest).drop framePrefixBytes).take
        ((metadataBytes note).length + (Utf8.encode note.content).length) =
      metadataBytes note ++ Utf8.encode note.content := by
  have hdrop : (frame note ++ rest).drop framePrefixBytes =
      metadataBytes note ++ Utf8.encode note.content ++ rest := by
    rw [frame, List.append_assoc]
    exact List.drop_left' rfl
  rw [hdrop, List.take_append_of_le_length (by rw [List.length_append])]
  exact List.take_of_length_le (by rw [List.length_append])

/-- The lengths of a frame are read back where its metadata fits. -/
theorem readPrefix_frame (size offset : Nat) (h : Framed u note)
    (hfits : (metadataBytes note).length ≤ maxFrameMetadataBytes)
    (hsize : offset + (frame note).length ≤ size) :
    readPrefix size offset
        (uint32 (metadataBytes note).length ++ uint32 (Utf8.encode note.content).length) =
      .ok {
        metadataLength := (metadataBytes note).length
        contentLength := (Utf8.encode note.content).length } := by
  have hbound := h.bounded
  have hcontent := length_content u note h
  have hpos := metadataBytes_length_pos note
  have hlen := length_frame note
  have hmeta : getUint32 ((uint32 (metadataBytes note).length ++
      uint32 (Utf8.encode note.content).length).take 4) = (metadataBytes note).length := by
    rw [List.take_append_of_le_length (by rfl)]
    refine getUint32_uint32 _ ?_
    simp only [maxFrameMetadataBytes] at hfits
    omega
  have htail : getUint32 ((uint32 (metadataBytes note).length ++
      uint32 (Utf8.encode note.content).length).drop 4) = (Utf8.encode note.content).length := by
    rw [List.drop_left' (by rfl)]
    refine getUint32_uint32 _ ?_
    simp only [maxMaterializedNoteBytes] at hbound
    omega
  unfold readPrefix
  simp only [hmeta, htail]
  rw [if_neg]
  rintro (hzero | hlarge | hlong | hover)
  · omega
  · omega
  · omega
  · omega

theorem decodeFrame_metadata (content : String) (h : Framed u note) (hid : note.fileId ≠ "") :
    decodeFrame u note.byteLength (stagedMetadata note) content =
      some { note with content := content } := by
  have hmodified : readModifiedAt ((stagedMetadata note).member "modifiedAt") =
      some note.modifiedAt := by
    cases hm : note.modifiedAt with
    | none => simp only [stagedMetadata, hm]; rfl
    | some n => simp only [stagedMetadata, hm]; rfl
  have hpath : (stagedMetadata note).member "path" = some (.str note.path) := rfl
  have hfile : (stagedMetadata note).member "fileId" = some (.str note.fileId) := rfl
  have hlength : (stagedMetadata note).member "byteLength" =
      some (.num (Decimal.ofNat note.byteLength)) := rfl
  simp only [decodeFrame, hpath, hfile, hlength, hmodified, h.validated]
  rw [if_neg]
  rintro (hempty | hne)
  · exact hid hempty
  · exact hne rfl

/-- The note of a frame is read back, except that its content loses a byte order
    mark it begins with. -/
theorem readFrame_frame (h : Framed u note) (hid : note.fileId ≠ "") :
    readFrame u
        { metadataLength := (metadataBytes note).length
          contentLength := (Utf8.encode note.content).length }
        (metadataBytes note ++ Utf8.encode note.content) =
      .ok { note with content := Utf8.stripBom note.content } := by
  have hmeta := decode_metadataBytes note
  have hcontent := Utf8.decode_encode note.content
  have hnote := decodeFrame_metadata u note (Utf8.stripBom note.content) h hid
  have hlen := length_content u note h
  simp only [readFrame, List.take_left', List.drop_left', hmeta, hcontent, hlen, hnote]

/-- A note that is fit to be staged is read back as itself. -/
theorem readFrame_frame_of_stageable (h : Framed u note) (hs : Stageable note) :
    readFrame u
        { metadataLength := (metadataBytes note).length
          contentLength := (Utf8.encode note.content).length }
        (metadataBytes note ++ Utf8.encode note.content) = .ok note := by
  rw [readFrame_frame u note h hs.identified, (Utf8.stripBom_eq_self_iff _).mpr hs.unmarked]

/-- A frame whose file has no identifier is refused. -/
theorem readFrame_frame_of_empty (contentLength : Nat) (hid : note.fileId = "") :
    readFrame u { metadataLength := (metadataBytes note).length, contentLength := contentLength }
        (metadataBytes note ++ Utf8.encode note.content) = .error .snapshotInvalid := by
  have hmeta := decode_metadataBytes note
  have hcontent := Utf8.decode_encode note.content
  have hnone : decodeFrame u contentLength (stagedMetadata note) (Utf8.stripBom note.content) =
      none := by
    have hfile : (stagedMetadata note).member "fileId" = some (.str "") := by
      rw [← hid]
      rfl
    unfold decodeFrame
    rw [hfile]
    split
    · next fileId _ _ _ _ heq _ _ =>
      rw [Option.some.injEq, Json.str.injEq] at heq
      rw [if_pos (Or.inl heq.symm)]
    · rfl
  simp only [readFrame, List.take_left', List.drop_left', hmeta, hcontent, hnone]

/-- A note is read back from its frame, as itself and with both lengths, exactly
    if it is fit to be staged. -/
theorem frame_readsBack_iff (size offset : Nat) (h : Framed u note) (hsize : offset + (frame note).length ≤ size) :
    (∃ lengths,
      readPrefix size offset (uint32 (metadataBytes note).length ++
        uint32 (Utf8.encode note.content).length) = .ok lengths ∧
      framePrefixBytes + lengths.metadataLength + lengths.contentLength = (frame note).length ∧
      readFrame u lengths (metadataBytes note ++ Utf8.encode note.content) = .ok note) ↔
    Stageable note := by
  have hlength := length_frame note
  constructor
  · rintro ⟨lengths, hprefix, hsum, hframe⟩
    have hcontent : getUint32 ((uint32 (metadataBytes note).length ++
        uint32 (Utf8.encode note.content).length).drop 4) = (Utf8.encode note.content).length := by
      have hbound := h.bounded
      have hsized := length_content u note h
      rw [List.drop_left' (by rfl)]
      refine getUint32_uint32 _ ?_
      simp only [maxMaterializedNoteBytes] at hbound
      omega
    unfold readPrefix at hprefix
    simp only [hcontent] at hprefix
    split at hprefix
    · cases hprefix
    · next hbounds =>
      push Not at hbounds
      rw [Except.ok.injEq] at hprefix
      have hfits : lengths.metadataLength ≤ maxFrameMetadataBytes := hprefix ▸ hbounds.2.1
      have hcounted : lengths.contentLength = (Utf8.encode note.content).length := by rw [← hprefix]
      have hlengths : lengths = {
          metadataLength := (metadataBytes note).length
          contentLength := (Utf8.encode note.content).length } := by
        cases lengths
        simp only [FramePrefix.mk.injEq] at hcounted hsum ⊢
        omega
      rw [hlengths] at hfits hframe
      dsimp only at hfits
      have hidentified : note.fileId ≠ "" := by
        intro hempty
        rw [readFrame_frame_of_empty u note _ hempty] at hframe
        cases hframe
      rw [readFrame_frame u note h hidentified, Except.ok.injEq] at hframe
      have hstripped : Utf8.stripBom note.content = note.content :=
        congrArg MaterializedSnapshotNote.content hframe
      exact ⟨hfits, hidentified, (Utf8.stripBom_eq_self_iff _).mp hstripped⟩
  · intro hs
    have hprefix := readPrefix_frame u note size offset h hs.metadataFits hsize
    have hframe := readFrame_frame_of_stageable u note h hs
    refine ⟨_, hprefix, ?_, hframe⟩
    simp only [hlength]

/-- Where the frame after `count` notes begins. -/
def offsetOf (notes : List MaterializedSnapshotNote) (count : Nat) : Nat :=
  ((notes.take count).flatMap frame).length

theorem offsetOf_succ (h : count < notes.length) :
    offsetOf notes (count + 1) = offsetOf notes count + (frame notes[count]).length := by
  rw [offsetOf, List.take_add_one, List.getElem?_eq_getElem h, Option.toList_some,
    List.flatMap_append, List.length_append, List.flatMap_singleton]
  rfl

theorem offsetOf_length :
    offsetOf notes notes.length = (notes.flatMap frame).length := by
  rw [offsetOf, List.take_length]

/-- Frames before an offset and after it are all there is. -/
theorem offsetOf_add :
    offsetOf notes count + ((notes.drop count).flatMap frame).length =
      (notes.flatMap frame).length := by
  rw [offsetOf, ← List.length_append, ← List.flatMap_append, List.take_append_drop]

/-- What stands at the offset of a note is its frame. -/
theorem staged_drop (h : count < notes.length) : ∃ rest,
    (notes.flatMap frame).drop (offsetOf notes count) = frame notes[count] ++ rest := by
  refine ⟨(notes.drop (count + 1)).flatMap frame, ?_⟩
  have hsplit : notes.flatMap frame =
      (notes.take count).flatMap frame ++ (notes.drop count).flatMap frame := by
    rw [← List.flatMap_append, List.take_append_drop]
  rw [hsplit, offsetOf, List.drop_left' rfl, List.drop_eq_getElem_cons h, List.flatMap_cons]

/-- The prefix of a note's frame, as it is read from the object. -/
theorem rangeOf_prefix (h : count < notes.length) :
    rangeOf (notes.flatMap frame) (offsetOf notes count) framePrefixBytes =
      uint32 (metadataBytes notes[count]).length ++
        uint32 (Utf8.encode notes[count].content).length := by
  rcases staged_drop notes count h with ⟨rest, hdrop⟩
  rw [rangeOf, hdrop, frame_take_prefix]

/-- The rest of the frame, as it is read from the object. -/
theorem rangeOf_frame (h : count < notes.length) :
    rangeOf (notes.flatMap frame) (offsetOf notes count + framePrefixBytes)
        ((metadataBytes notes[count]).length + (Utf8.encode notes[count].content).length) =
      metadataBytes notes[count] ++ Utf8.encode notes[count].content := by
  rcases staged_drop notes count h with ⟨rest, hdrop⟩
  rw [rangeOf, ← List.drop_drop, hdrop, frame_drop_prefix]

/-- A frame ends within the object. -/
theorem offsetOf_frame_le (h : count < notes.length) :
    offsetOf notes count + (frame notes[count]).length ≤ (notes.flatMap frame).length := by
  have hnext := offsetOf_succ notes count h
  have hrest := offsetOf_add notes (count + 1)
  omega

end

end Mdevolved.Materialization
