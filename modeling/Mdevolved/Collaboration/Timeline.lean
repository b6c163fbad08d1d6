import Mdevolved.Collaboration.Tables
import Mdevolved.Lib.JsonToken
import Mdevolved.Lib.Keyset

/-!
# The Timeline

The records of the ledger, the latest first, in pages. A page ends with a cursor for its last row
if there are more, and the next page begins behind that row. Rows of one second are told apart by
their identifiers.

The cursor is read back by a grammar of its own, which knows the identifiers that have a version
and a variant. The ledger also lets through the two that have neither, all zeros and all ones. A
page that ends with one of them has a cursor that is refused.

## Main definitions

* `TimelineStore`: The ledger, as far as it is read here.
* `readCollaborationTimelinePage`: One page.
* `parseTimelineCursor`: What a cursor is read as.
* `followTimeline`: Page after page.
* `isCursorId`, `isPortableId`: The identifiers of cursors and those of the ledger.

## Theorems

* `parseTimelineCursor_encode`: When a cursor is read back.
* `readPage_eq`: A page is cut from the rows that are left.
* `followTimeline_iff`: When page after page comes to an end, and with what.
* `timeline_read`: When a timeline is read in full, and which cursors are accepted.
-/

namespace Mdevolved.Collaboration

open JsValue JsonToken

/-! ## Identifiers -/

def isHexDigit (c : Char) : Bool := (Json.hexValue? c).isSome

/-- A digit of an identifier at its place: a hyphen, a version, a variant, or any. -/
def isUuidChar (place : ℕ) (c : Char) : Bool :=
  if place ∈ [8, 13, 18, 23] then c = '-'
  else if place = 14 then c ∈ ['1', '2', '3', '4', '5', '6', '7', '8']
  else if place = 19 then c ∈ ['8', '9', 'a', 'b', 'A', 'B']
  else isHexDigit c

/-- An identifier with a version and a variant. -/
def isCursorId (cs : List Char) : Bool :=
  cs.length = 36 && (cs.zipIdx).all (fun p => isUuidChar p.2 p.1)

def nilId : String := "00000000-0000-0000-0000-000000000000"

def maxId : String := "ffffffff-ffff-ffff-ffff-ffffffffffff"

/-- What a UUID is to the schemas. -/
def isPortableId (id : String) : Bool :=
  isCursorId id.toList || id = nilId || id = maxId

/-! ## Rows -/

structure GrantClientRow where
  grantId : String
  clientName : String

/-- The ledger with the names of clients. Its records and their states have keys, and what the
    schemas and checks let in. -/
structure TimelineStore where
  db : CollaborationDb
  clients : List GrantClientRow
  records_keyed : db.records.Pairwise (fun r t => r.id ≠ t.id)
  states_keyed : db.states.Pairwise (fun s t => s.recordId ≠ t.recordId)
  portable : ∀ r ∈ db.records, isPortableId r.id = true
  received : ∀ r ∈ db.records, 0 ≤ r.receivedAt ∧ r.receivedAt ≤ 2 ^ 53 - 1

structure TimelineRow where
  id : String
  recordType : RecordType
  projectId : Option String
  workItemId : Option String
  contentSha256 : String
  receivedAt : ℤ
  visibility : Visibility
  disposition : Disposition
  producerLabel : Option String

/-- The client that a record came from: by its name, if its grant is there, or by its own. -/
def producerOf (store : TimelineStore) (r : RecordRow) : Option String :=
  ((store.clients.find? (fun c => some c.grantId = r.historicalGrantId &&
      store.db.grants.any (fun g => g.id = c.grantId))).map GrantClientRow.clientName).or
    r.producerClientId

def timelineRow (contentSha256 : CollaborationRecord → String) (store : TimelineStore)
    (r : RecordRow) (s : StateRow) : TimelineRow :=
  { id := r.id
    recordType := r.recordType
    projectId := r.projectId
    workItemId := r.workItemId
    contentSha256 := contentSha256 r.record
    receivedAt := r.receivedAt
    visibility := s.visibility
    disposition := s.disposition
    producerLabel := producerOf store r }

/-- Records joined with their states. -/
def timelineRows (contentSha256 : CollaborationRecord → String) (store : TimelineStore) :
    List TimelineRow :=
  store.db.records.flatMap (fun r =>
    (store.db.states.filter (fun s => s.recordId = r.id)).map (timelineRow contentSha256 store r))

inductive TimelineKind
  | inbox | timeline

/-- The filter of a kind. -/
def TimelineKind.admits (kind : TimelineKind) (r : TimelineRow) : Bool :=
  match kind with
  | inbox => r.recordType ∈ [.attempt, .artifact, .handoff, .review] && r.disposition = .pending
  | timeline => r.projectId.isSome

structure TimelineCursor where
  createdAt : ℤ
  recordId : String

/-- A row comes behind a cursor. -/
def behind (cursor : Option TimelineCursor) (r : TimelineRow) : Bool :=
  match cursor with
  | none => true
  | some c => r.receivedAt < c.createdAt || (r.receivedAt = c.createdAt && r.id < c.recordId)

/-- The latest first, and in one second the greatest identifier. -/
def Latest (r t : TimelineRow) : Prop :=
  t.receivedAt < r.receivedAt ∨ (t.receivedAt = r.receivedAt ∧ t.id ≤ r.id)

instance : DecidableRel Latest := fun r t =>
  inferInstanceAs (Decidable (t.receivedAt < r.receivedAt ∨
    (t.receivedAt = r.receivedAt ∧ t.id ≤ r.id)))

/-- The rows that a statement finds behind a cursor, in order. -/
def rowsBehind (contentSha256 : CollaborationRecord → String) (store : TimelineStore)
    (kind : TimelineKind) (cursor : Option TimelineCursor) : List TimelineRow :=
  ((timelineRows contentSha256 store).filter (fun r => kind.admits r && behind cursor r)).insertionSort
    Latest

/-! ## Pages -/

structure TimelineItem where
  contentSha256 : String
  createdAt : ℤ
  disposition : Disposition
  producerLabel : Option JsString
  projectId : String
  recordId : String
  recordType : RecordType
  visibility : Visibility
  workItemId : Option String

structure TimelinePage where
  items : List TimelineItem
  nextCursor : Option JsString

/-- What a page is made with: the hash of a record, the rounding of numbers, and which characters
    are control characters or format characters. -/
structure TimelinePlatform where
  contentSha256 : CollaborationRecord → String
  rounding : Rounding
  isControl : Char → Bool

/-- A label without characters that cannot be seen, and not too long. -/
def producerLabel (platform : TimelinePlatform) (value : Option String) : Option JsString :=
  value.map (fun label =>
    let shown := String.ofList (label.toList.map (fun c =>
      if platform.isControl c then Char.ofNat 0xFFFD else c))
    let isSpace := fun u : CodeUnit => JsString.isSpace (Char.ofNat u.val)
    let bounded := (((JsString.ofText shown).dropWhile isSpace).rdropWhile isSpace).take 120
    if bounded = [] then JsString.ofText "authorized client" else bounded)

def timelineItem (platform : TimelinePlatform) (r : TimelineRow) : Option TimelineItem :=
  r.projectId.map (fun projectId =>
    { contentSha256 := r.contentSha256
      createdAt := r.receivedAt
      disposition := r.disposition
      producerLabel := producerLabel platform r.producerLabel
      projectId := projectId
      recordId := r.id
      recordType := r.recordType
      visibility := r.visibility
      workItemId := r.workItemId })

def cursorMembers (r : TimelineRow) : List (JsString × JsValue) :=
  [(JsString.ofText "createdAt", number r.receivedAt.toNat),
    (JsString.ofText "recordId", str (JsString.ofText r.id))]

def encodeTimelineCursor (r : TimelineRow) : JsString := JsonToken.encode (obj (cursorMembers r))

def timelineItems (platform : TimelinePlatform) (store : TimelineStore) (kind : TimelineKind)
    (limit : ℕ) (cursor : Option TimelineCursor) : TimelinePage :=
  let results := (rowsBehind platform.contentSha256 store kind cursor).take (limit + 1)
  { items := (results.take limit).filterMap (timelineItem platform)
    nextCursor :=
      if limit < results.length then (results.take limit).getLast?.map encodeTimelineCursor
      else none }

/-- `Number.isSafeInteger`, with the number -/
def safeInteger? (v : Option JsValue) : Option ℤ :=
  match v with
  | some (num x) => x.toInt?.filter (fun i => -(2 ^ 53 - 1) ≤ i && i ≤ 2 ^ 53 - 1)
  | _ => none

/-- A string that is an identifier of a cursor. -/
def cursorId? (v : Option JsValue) : Option String :=
  match v with
  | some (str s) => if isCursorId s.chars then some (String.ofList s.chars) else none
  | _ => none

/-- What a cursor is read as. Nothing stands for `collaboration_cursor_invalid`. -/
def parseTimelineCursor (rounding : Rounding) (raw : JsString) : Option TimelineCursor :=
  match JsonToken.decode rounding raw with
  | some (obj members) =>
      match safeInteger? (member members "createdAt"), cursorId? (member members "recordId") with
      | some createdAt, some recordId =>
          if createdAt < 0 then none else some { createdAt := createdAt, recordId := recordId }
      | _, _ => none
  | _ => none

def readCollaborationTimelinePage (platform : TimelinePlatform) (store : TimelineStore)
    (kind : TimelineKind) (limit : ℕ) (cursor : Option JsString) : Option TimelinePage :=
  match cursor with
  | none => some (timelineItems platform store kind limit none)
  | some raw =>
      (parseTimelineCursor platform.rounding raw).map (fun c =>
        timelineItems platform store kind limit (some c))

/-- Page after page, from a cursor on, as long as there is another. Nothing comes of it if a
    cursor is refused, or if there are more pages than `fuel`. -/
def followTimeline (platform : TimelinePlatform) (store : TimelineStore) (kind : TimelineKind)
    (limit : ℕ) : ℕ → Option JsString → Option (List TimelineItem)
  | 0, _ => none
  | fuel + 1, cursor =>
      match readCollaborationTimelinePage platform store kind limit cursor with
      | none => none
      | some page =>
          match page.nextCursor with
          | none => some page.items
          | some next =>
              (followTimeline platform store kind limit fuel (some next)).map (page.items ++ ·)

/-! ## Identifiers in cursors -/

theorem nilId_ne_cursorId : isCursorId nilId.toList = false ∧ isCursorId maxId.toList = false := by
  decide +kernel

theorem isHexDigit_small (c : Char) (h : isHexDigit c = true) : c.toNat < 128 := by
  unfold isHexDigit Json.hexValue? at h
  split at h
  · omega
  · split at h
    · omega
    · split at h
      · omega
      · cases h

/-- Identifiers are in ASCII. -/
theorem isCursorId_small (cs : List Char) (h : isCursorId cs = true) : ∀ c ∈ cs, c.toNat < 128 := by
  rw [isCursorId, Bool.and_eq_true, List.all_eq_true] at h
  intro c hc
  obtain ⟨place, hplace, rfl⟩ := List.mem_iff_getElem.mp hc
  have hchar := h.2 (cs[place], place) (by
    rw [List.mem_iff_getElem]
    refine ⟨place, by simpa using hplace, by simp⟩)
  simp only [isUuidChar] at hchar
  split at hchar
  · rw [of_decide_eq_true hchar]
    decide
  · split at hchar
    · have hmem := of_decide_eq_true hchar
      simp only [List.mem_cons, List.not_mem_nil, or_false] at hmem
      rcases hmem with h | h | h | h | h | h | h | h <;> rw [h] <;> decide
    · split at hchar
      · have hmem := of_decide_eq_true hchar
        simp only [List.mem_cons, List.not_mem_nil, or_false] at hmem
        rcases hmem with h | h | h | h | h | h <;> rw [h] <;> decide
      · exact isHexDigit_small _ hchar

theorem isPortableId_small (id : String) (h : isPortableId id = true) :
    ∀ c ∈ id.toList, c.toNat < 128 := by
  simp only [isPortableId, Bool.or_eq_true, decide_eq_true_eq] at h
  have hsmall : ∀ text : String, text.toList.all (fun c => decide (c.toNat < 128)) = true →
      ∀ c ∈ text.toList, c.toNat < 128 :=
    fun text hall c hc => of_decide_eq_true (List.all_eq_true.mp hall c hc)
  rcases h with (h | rfl) | rfl
  · exact isCursorId_small _ h
  · exact hsmall _ (by decide +kernel)
  · exact hsmall _ (by decide +kernel)

/-- A text in ASCII is its own code units. -/
theorem chars_ofText (s : String) (h : ∀ c ∈ s.toList, c.toNat < 128) :
    (JsString.ofText s).chars = s.toList := by
  have hall : ∀ cs : List Char, (∀ c ∈ cs, c.toNat < 128) →
      JsString.chars (cs.flatMap JsString.charUnits) = cs := by
    intro cs hcs
    induction cs with
    | nil => rfl
    | cons c cs ih =>
        have hc := hcs c List.mem_cons_self
        have hval : (Fin.ofNat 0x10000 c.toNat).val = c.toNat := Nat.mod_eq_of_lt (by omega)
        rw [List.flatMap_cons, JsString.charUnits_small c (by omega), List.singleton_append,
          JsString.chars, List.map_cons, hval, Char.ofNat_toNat]
        congr 1
        exact ih (fun d hd => hcs d (List.mem_cons_of_mem c hd))
  exact hall s.toList h

/-- The identifiers of the ledger that are no identifiers of cursors. -/
theorem isCursorId_iff (id : String) (h : isPortableId id = true) :
    isCursorId id.toList = true ↔ id ≠ nilId ∧ id ≠ maxId := by
  constructor
  · intro hid
    constructor
    · rintro rfl
      rw [nilId_ne_cursorId.1] at hid
      cases hid
    · rintro rfl
      rw [nilId_ne_cursorId.2] at hid
      cases hid
  · rintro ⟨hnil, hmax⟩
    simp only [isPortableId, Bool.or_eq_true, decide_eq_true_eq] at h
    exact (h.resolve_right hmax).resolve_right hnil

/-! ## Cursors -/

/-- What the store promises of a row. -/
structure Readable (r : TimelineRow) : Prop where
  portable : isPortableId r.id = true
  received : 0 ≤ r.receivedAt ∧ r.receivedAt ≤ 2 ^ 53 - 1

theorem cursorMembers_decode (rounding : Rounding) (r : TimelineRow) (hr : Readable r) :
    JsonToken.decode rounding (encodeTimelineCursor r) = some (obj (cursorMembers r)) ∧
      member (cursorMembers r) "createdAt" = some (number r.receivedAt.toNat) ∧
      member (cursorMembers r) "recordId" = some (str (JsString.ofText r.id)) := by
  have hsafe : r.receivedAt.toNat ≤ 2 ^ 53 - 1 := by
    have hreceived := hr.received
    omega
  have hnodup : ((cursorMembers r).map Prod.fst).Nodup := by
    have hnames : [JsString.ofText "createdAt", JsString.ofText "recordId"].Nodup := by
      decide +kernel
    exact hnames
  have hjson : IsJson (obj (cursorMembers r)) := by
    rw [IsJson, membersJson_iff]
    refine ⟨hnodup, fun m hm => ?_⟩
    simp only [cursorMembers, List.mem_cons, List.not_mem_nil, or_false] at hm
    rcases hm with rfl | rfl <;> simp [IsJson, number]
  refine ⟨decode_encode rounding _ hjson ?_, ?_, ?_⟩
  · intro m hm
    simp only [cursorMembers, List.mem_cons, List.not_mem_nil, or_false] at hm
    rcases hm with rfl | rfl
    · exact rounded_number rounding _ hsafe
    · exact rounded_str _ _
  · exact member_of_mem _ _ _ hnodup (by simp [cursorMembers])
  · exact member_of_mem _ _ _ hnodup (by simp [cursorMembers])

/-- A cursor is read back exactly if it is for an identifier that cursors know. -/
theorem parseTimelineCursor_encode (rounding : Rounding) (r : TimelineRow) (hr : Readable r) :
    parseTimelineCursor rounding (encodeTimelineCursor r) =
      if isCursorId r.id.toList then some { createdAt := r.receivedAt, recordId := r.id }
      else none := by
  obtain ⟨hdecode, hcreatedAt, hrecordId⟩ := cursorMembers_decode rounding r hr
  have hchars := chars_ofText r.id (isPortableId_small r.id hr.portable)
  have hnumber : safeInteger? (some (number r.receivedAt.toNat)) = some r.receivedAt := by
    have hreceived := hr.received
    have hint : (r.receivedAt.toNat : ℤ) = r.receivedAt := Int.toNat_of_nonneg hreceived.1
    have hbounds : (-(2 ^ 53 - 1) ≤ r.receivedAt && r.receivedAt ≤ 2 ^ 53 - 1) = true := by
      rw [Bool.and_eq_true, decide_eq_true_eq, decide_eq_true_eq]
      omega
    simp only [safeInteger?, number, JsNumber.toInt?, Decimal.toInt?_ofNat, hint]
    rw [Option.filter_some, if_pos hbounds]
  unfold parseTimelineCursor
  simp only [hdecode, hcreatedAt, hrecordId, hnumber]
  by_cases hid : isCursorId r.id.toList = true
  · simp only [cursorId?, hchars, hid, if_true, String.ofList_toList,
      if_neg (Int.not_lt.mpr hr.received.1)]
  · simp only [cursorId?, hchars, hid, if_false, Bool.false_eq_true]

/-! ## Rows in order -/

section Rows

variable (hash : CollaborationRecord → String) (store : TimelineStore)

/-- A record has one state at most, so no identifier comes twice. -/
theorem timelineRows_keyed : (timelineRows hash store).Pairwise (fun r t => r.id ≠ t.id) := by
  rw [timelineRows, List.pairwise_flatMap]
  constructor
  · intro r _
    rw [List.pairwise_map]
    have hall : ∀ s ∈ store.db.states.filter (fun s => s.recordId = r.id), s.recordId = r.id := by
      intro s hs
      exact of_decide_eq_true (List.mem_filter.mp hs).2
    refine (store.states_keyed.filter _).imp_of_mem (fun hs ht hne => ?_)
    exact absurd ((hall _ hs).trans (hall _ ht).symm) hne
  · refine store.records_keyed.imp (fun hne => ?_)
    intro r hr t ht
    obtain ⟨s, -, rfl⟩ := List.mem_map.mp hr
    obtain ⟨s', -, rfl⟩ := List.mem_map.mp ht
    exact hne

section

variable (kind : TimelineKind) (cursor : Option TimelineCursor) (r : TimelineRow)

theorem timelineRows_readable (h : r ∈ timelineRows hash store) :
    Readable r := by
  obtain ⟨record, hrecord, hr⟩ := List.mem_flatMap.mp h
  obtain ⟨s, -, rfl⟩ := List.mem_map.mp hr
  exact ⟨store.portable record hrecord, store.received record hrecord⟩

/-- What a filter lets through has a project. -/
theorem admits_project (h : r ∈ timelineRows hash store)
    (hkind : kind.admits r = true) : r.projectId.isSome = true := by
  cases kind with
  | timeline => exact hkind
  | inbox =>
      obtain ⟨row, -, hr⟩ := List.mem_flatMap.mp h
      obtain ⟨s, -, rfl⟩ := List.mem_map.mp hr
      simp only [TimelineKind.admits, Bool.and_eq_true] at hkind
      have htype := of_decide_eq_true hkind.1
      simp only [timelineRow, RecordRow.recordType, RecordRow.projectId] at htype ⊢
      cases hrecord : row.record <;> rw [hrecord] at htype <;>
        simp_all [CollaborationRecord.recordType, CollaborationRecord.recordProjectId]

/-- Where a row stands: later rows first, and behind no cursor every row. -/
def timelineKey (r : TimelineRow) : WithBot (Lex (ℤ × String))ᵒᵈ :=
  ((OrderDual.toDual (toLex (r.receivedAt, r.id)) : (Lex (ℤ × String))ᵒᵈ) : WithBot _)

def cursorKey : Option TimelineCursor → WithBot (Lex (ℤ × String))ᵒᵈ
  | none => ⊥
  | some c =>
      ((OrderDual.toDual (toLex (c.createdAt, c.recordId)) : (Lex (ℤ × String))ᵒᵈ) : WithBot _)

theorem behind_iff :
    behind cursor r = true ↔ cursorKey cursor < timelineKey r := by
  cases cursor with
  | none => exact iff_of_true rfl (WithBot.bot_lt_coe _)
  | some c =>
      rw [behind, cursorKey, timelineKey, WithBot.coe_lt_coe, OrderDual.toDual_lt_toDual,
        Prod.Lex.toLex_lt_toLex, Bool.or_eq_true, Bool.and_eq_true, decide_eq_true_eq,
        decide_eq_true_eq, decide_eq_true_eq]

theorem latest_iff (r t : TimelineRow) : Latest r t ↔ timelineKey r ≤ timelineKey t := by
  rw [Latest, timelineKey, timelineKey, WithBot.coe_le_coe, OrderDual.toDual_le_toDual,
    Prod.Lex.toLex_le_toLex]

/-- The rows that a filter lets through. -/
def matching (kind : TimelineKind) : List TimelineRow :=
  (timelineRows hash store).filter kind.admits

theorem matching_keyed :
    (matching hash store kind).Pairwise (fun r t => timelineKey r ≠ timelineKey t) := by
  refine ((timelineRows_keyed hash store).filter _).imp (fun hne heq => hne ?_)
  rw [timelineKey, timelineKey, WithBot.coe_inj, EmbeddingLike.apply_eq_iff_eq,
    EmbeddingLike.apply_eq_iff_eq, Prod.mk.injEq] at heq
  exact heq.2

theorem rowsBehind_eq :
    rowsBehind hash store kind cursor =
      Keyset.beyond timelineKey (cursorKey cursor) (matching hash store kind) := by
  have hfilter : (timelineRows hash store).filter
      (fun r => kind.admits r && behind cursor r) =
        (matching hash store kind).filter (fun r => cursorKey cursor < timelineKey r) := by
    rw [matching, List.filter_filter]
    apply List.filter_congr
    intro r _
    rw [Bool.and_comm, Bool.eq_iff_iff, Bool.and_eq_true, Bool.and_eq_true, behind_iff,
      decide_eq_true_eq]
  have horder : Latest = (fun r t => timelineKey r ≤ timelineKey t) := by
    funext r t
    exact propext (latest_iff r t)
  rw [rowsBehind, Keyset.beyond, hfilter]
  congr 1

/-- The rows behind the last row of a page are those that the page leaves. -/
theorem rowsBehind_last (limit : ℕ)
    (hlimit : 0 < limit) (last : TimelineRow)
    (hlast : ((rowsBehind hash store kind cursor).take limit).getLast? = some last) :
    rowsBehind hash store kind (some { createdAt := last.receivedAt, recordId := last.id }) =
      (rowsBehind hash store kind cursor).drop limit := by
  have hresume := Keyset.beyond_resume timelineKey (cursorKey cursor) limit
    (matching hash store kind) (matching_keyed hash store kind) hlimit
  have hkey : Keyset.resume timelineKey (cursorKey cursor)
      (Keyset.page timelineKey (cursorKey cursor) limit (matching hash store kind)) =
        timelineKey last := by
    rw [Keyset.resume, Keyset.page, ← rowsBehind_eq, hlast]
    rfl
  rw [hkey] at hresume
  rw [rowsBehind_eq, rowsBehind_eq, ← hresume]
  rfl

theorem mem_rowsBehind (h : r ∈ rowsBehind hash store kind cursor) :
    r ∈ timelineRows hash store ∧ kind.admits r = true := by
  rw [rowsBehind, List.mem_insertionSort, List.mem_filter, Bool.and_eq_true] at h
  exact ⟨h.1, h.2.1⟩

end

end Rows

/-! ## Page after page -/

/-- Every row that a page ends with, while there are more, has an identifier of cursors. -/
def Accepted (limit : ℕ) (rows : List TimelineRow) : Prop :=
  ∀ k r, (k + 1) * limit < rows.length → rows[(k + 1) * limit - 1]? = some r →
    isCursorId r.id.toList = true

theorem accepted_short (limit : ℕ) (rows : List TimelineRow) (h : rows.length ≤ limit) :
    Accepted limit rows := by
  intro k r hk
  have hle : limit ≤ (k + 1) * limit := Nat.le_mul_of_pos_left limit (Nat.succ_pos k)
  omega

/-- The pages of what a page leaves end where the later pages end. -/
theorem accepted_drop (limit : ℕ) (rows : List TimelineRow) (hlimit : 0 < limit)
    (h : limit < rows.length) :
    Accepted limit rows ↔
      (∀ r, rows[limit - 1]? = some r → isCursorId r.id.toList = true) ∧
        Accepted limit (rows.drop limit) := by
  have hnext : ∀ k, (k + 1 + 1) * limit = (k + 1) * limit + limit := fun k => by
    rw [Nat.succ_mul (k + 1)]
  have hpos : ∀ k, 0 < (k + 1) * limit := fun k => Nat.mul_pos (Nat.succ_pos k) hlimit
  have hindex : ∀ k, (rows.drop limit)[(k + 1) * limit - 1]? = rows[(k + 1 + 1) * limit - 1]? := by
    intro k
    have hk := hpos k
    have hsum : limit + ((k + 1) * limit - 1) = (k + 1 + 1) * limit - 1 := by
      rw [hnext]
      omega
    rw [List.getElem?_drop, hsum]
  constructor
  · intro haccepted
    constructor
    · intro r hr
      apply haccepted 0 r
      · rw [Nat.zero_add, Nat.one_mul]
        exact h
      · rw [Nat.zero_add, Nat.one_mul]
        exact hr
    · intro k r hk hr
      rw [List.length_drop] at hk
      rw [hindex] at hr
      apply haccepted (k + 1) r _ hr
      rw [hnext]
      omega
  · rintro ⟨hfirst, hrest⟩ k r hk hr
    cases k with
    | zero =>
        rw [Nat.zero_add, Nat.one_mul] at hr
        exact hfirst r hr
    | succ k =>
        apply hrest k r
        · rw [hnext] at hk
          rw [List.length_drop]
          omega
        · rw [hindex]
          exact hr

section Following

variable (platform : TimelinePlatform) (store : TimelineStore) (kind : TimelineKind) (limit : ℕ)

section

variable (cursor : Option TimelineCursor)

/-- A page is cut from the rows that are left. -/
theorem readPage_eq :
    timelineItems platform store kind limit cursor =
      { items := ((rowsBehind platform.contentSha256 store kind cursor).take limit).filterMap
          (timelineItem platform)
        nextCursor :=
          if limit < (rowsBehind platform.contentSha256 store kind cursor).length then
            ((rowsBehind platform.contentSha256 store kind cursor).take limit).getLast?.map
              encodeTimelineCursor
          else none } := by
  have htake : ∀ rows : List TimelineRow, (rows.take (limit + 1)).take limit = rows.take limit := by
    intro rows
    rw [List.take_take, Nat.min_eq_left (Nat.le_succ limit)]
  have hlength : ∀ rows : List TimelineRow,
      limit < (rows.take (limit + 1)).length ↔ limit < rows.length := by
    intro rows
    rw [List.length_take]
    omega
  simp only [timelineItems, htake, hlength]

/-- A cursor that the service writes is for the last row of a page, and the page has it. -/
theorem nextCursor_last (hlimit : 0 < limit)
    (hlong : limit < (rowsBehind platform.contentSha256 store kind cursor).length) :
    ∃ last, (rowsBehind platform.contentSha256 store kind cursor)[limit - 1]? = some last ∧
      ((rowsBehind platform.contentSha256 store kind cursor).take limit).getLast? = some last ∧
      Readable last ∧
      (timelineItems platform store kind limit cursor).nextCursor =
        some (encodeTimelineCursor last) := by
  have hlast : ((rowsBehind platform.contentSha256 store kind cursor).take limit).getLast? =
      (rowsBehind platform.contentSha256 store kind cursor)[limit - 1]? := by
    rw [List.getLast?_take, if_neg (by omega), List.getElem?_eq_getElem (by omega),
      Option.some_or]
  have hsome := List.getElem?_eq_getElem (l := rowsBehind platform.contentSha256 store kind cursor)
    (i := limit - 1) (by omega)
  rw [hsome] at hlast
  have hmem := mem_rowsBehind platform.contentSha256 store kind cursor _
    (List.mem_of_getElem? hsome)
  refine ⟨_, hsome, hlast, timelineRows_readable platform.contentSha256 store _ hmem.1, ?_⟩
  rw [readPage_eq, if_pos hlong, hlast]
  rfl

/-- Reading on after a page reads what the page leaves. -/
theorem readPage_next (hlimit : 0 < limit) (last : TimelineRow)
    (hlast : ((rowsBehind platform.contentSha256 store kind cursor).take limit).getLast? =
      some last) (hreadable : Readable last) :
    readCollaborationTimelinePage platform store kind limit (some (encodeTimelineCursor last)) =
        (if isCursorId last.id.toList then
          some (timelineItems platform store kind limit
            (some { createdAt := last.receivedAt, recordId := last.id }))
        else none) ∧
      rowsBehind platform.contentSha256 store kind
          (some { createdAt := last.receivedAt, recordId := last.id }) =
        (rowsBehind platform.contentSha256 store kind cursor).drop limit := by
  refine ⟨?_, rowsBehind_last platform.contentSha256 store kind cursor limit hlimit last hlast⟩
  rw [readCollaborationTimelinePage, parseTimelineCursor_encode platform.rounding last hreadable]
  split <;> rfl

end

/-- Page after page comes to an end with all rows if every cursor on the way is accepted, and
    else not at all. The induction is on the fuel, which the rows that are left bound. -/
theorem followTimeline_iff (hlimit : 0 < limit) (fuel : ℕ) (raw : Option JsString)
    (cursor : Option TimelineCursor)
    (hread : readCollaborationTimelinePage platform store kind limit raw =
      some (timelineItems platform store kind limit cursor)) :
    (Accepted limit (rowsBehind platform.contentSha256 store kind cursor) →
      (rowsBehind platform.contentSha256 store kind cursor).length < fuel →
      followTimeline platform store kind limit fuel raw =
        some ((rowsBehind platform.contentSha256 store kind cursor).filterMap
          (timelineItem platform))) ∧
    ∀ items, followTimeline platform store kind limit fuel raw = some items →
      Accepted limit (rowsBehind platform.contentSha256 store kind cursor) ∧
      items = (rowsBehind platform.contentSha256 store kind cursor).filterMap
        (timelineItem platform) := by
  induction fuel generalizing raw cursor with
  | zero =>
      refine ⟨fun _ h => absurd h (Nat.not_lt_zero _), fun items h => ?_⟩
      rw [followTimeline] at h
      cases h
  | succ fuel ih =>
      by_cases hlong : limit < (rowsBehind platform.contentSha256 store kind cursor).length
      · obtain ⟨last, hindex, hlast, hreadable, hnext⟩ :=
          nextCursor_last platform store kind limit cursor hlimit hlong
        obtain ⟨hpage, hrest⟩ :=
          readPage_next platform store kind limit cursor hlimit last hlast hreadable
        have hitems : (timelineItems platform store kind limit cursor).items =
            ((rowsBehind platform.contentSha256 store kind cursor).take limit).filterMap
              (timelineItem platform) := by
          rw [readPage_eq]
        have hall : ((rowsBehind platform.contentSha256 store kind cursor).take limit).filterMap
            (timelineItem platform) ++
              ((rowsBehind platform.contentSha256 store kind cursor).drop limit).filterMap
                (timelineItem platform) =
              (rowsBehind platform.contentSha256 store kind cursor).filterMap
                (timelineItem platform) := by
          rw [← List.filterMap_append, List.take_append_drop]
        have hfirst : (∀ r, (rowsBehind platform.contentSha256 store kind cursor)[limit - 1]? =
            some r → isCursorId r.id.toList = true) ↔ isCursorId last.id.toList = true := by
          constructor
          · intro h
            exact h last hindex
          · intro h r hr
            rw [hindex, Option.some.injEq] at hr
            rw [← hr]
            exact h
        rw [accepted_drop limit _ hlimit hlong, hfirst]
        simp only [followTimeline, hread, hnext]
        by_cases hid : isCursorId last.id.toList = true
        · rw [if_pos hid] at hpage
          obtain ⟨ihread, ihitems⟩ := ih (some (encodeTimelineCursor last)) _ hpage
          rw [hrest] at ihread ihitems
          constructor
          · rintro ⟨-, haccepted⟩ hfuel
            rw [ihread haccepted (by rw [List.length_drop]; omega), Option.map_some, hitems, hall]
          · intro items hfollow
            obtain ⟨more, hmore, rfl⟩ := Option.map_eq_some_iff.mp hfollow
            obtain ⟨haccepted, rfl⟩ := ihitems more hmore
            exact ⟨⟨hid, haccepted⟩, by rw [hitems, hall]⟩
        · rw [if_neg hid] at hpage
          have hstop : followTimeline platform store kind limit fuel
              (some (encodeTimelineCursor last)) = none := by
            cases fuel with
            | zero => rfl
            | succ fuel => simp only [followTimeline, hpage]
          rw [hstop]
          exact ⟨fun haccepted => absurd haccepted.1 hid, fun items h => nomatch h⟩
      · -- The last page.
        have hshort := accepted_short limit _ (Nat.le_of_not_lt hlong)
        have hpage : timelineItems platform store kind limit cursor =
            { items := (rowsBehind platform.contentSha256 store kind cursor).filterMap
                (timelineItem platform)
              nextCursor := none } := by
          rw [readPage_eq, if_neg hlong, List.take_of_length_le (Nat.le_of_not_lt hlong)]
        simp only [followTimeline, hread, hpage]
        exact ⟨fun _ _ => trivial, fun items h => ⟨hshort, (Option.some.inj h).symm⟩⟩

end Following

/-! ## A timeline that is read -/

/-- The size of a page. -/
structure PageSize where
  value : ℕ
  positive : 0 < value

/-- Items are those of all rows that a filter lets through, each once, in order. -/
structure ReadInFull (platform : TimelinePlatform) (store : TimelineStore) (kind : TimelineKind)
    (items : List TimelineItem) : Prop where
  every : ∀ r ∈ timelineRows platform.contentSha256 store, kind.admits r = true →
    ∃ item ∈ items, timelineItem platform r = some item
  only : ∀ item ∈ items, ∃ r ∈ timelineRows platform.contentSha256 store,
    kind.admits r = true ∧ timelineItem platform r = some item
  ordered : items.Pairwise (fun a b => b.createdAt < a.createdAt ∨
    (b.createdAt = a.createdAt ∧ b.recordId < a.recordId))

theorem rowsBehind_inFull (platform : TimelinePlatform) (store : TimelineStore)
    (kind : TimelineKind) :
    ReadInFull platform store kind
      ((rowsBehind platform.contentSha256 store kind none).filterMap (timelineItem platform)) := by
  constructor
  · intro r hr hkind
    have hmem : r ∈ rowsBehind platform.contentSha256 store kind none := by
      rw [rowsBehind, List.mem_insertionSort, List.mem_filter, Bool.and_eq_true]
      exact ⟨hr, hkind, rfl⟩
    obtain ⟨projectId, hproject⟩ := Option.isSome_iff_exists.mp
      (admits_project platform.contentSha256 store kind r hr hkind)
    have hitem : ∃ item, timelineItem platform r = some item := by
      rw [timelineItem, hproject]
      exact ⟨_, rfl⟩
    obtain ⟨item, hitem⟩ := hitem
    exact ⟨item, List.mem_filterMap.mpr ⟨r, hmem, hitem⟩, hitem⟩
  · intro item hitem
    obtain ⟨r, hr, hshown⟩ := List.mem_filterMap.mp hitem
    obtain ⟨hrow, hkind⟩ := mem_rowsBehind platform.contentSha256 store kind none r hr
    exact ⟨r, hrow, hkind, hshown⟩
  · have hshown : ∀ r item, timelineItem platform r = some item →
        item.createdAt = r.receivedAt ∧ item.recordId = r.id := by
      intro r item hitem
      obtain ⟨projectId, -, rfl⟩ := Option.map_eq_some_iff.mp hitem
      exact ⟨rfl, rfl⟩
    rw [List.pairwise_filterMap, rowsBehind_eq]
    refine (Keyset.pairwise_beyond timelineKey _ _
      (matching_keyed platform.contentSha256 store kind)).imp (fun hlt a ha b hb => ?_)
    rw [timelineKey, timelineKey, WithBot.coe_lt_coe, OrderDual.toDual_lt_toDual,
      Prod.Lex.toLex_lt_toLex] at hlt
    rw [(hshown _ _ ha).1, (hshown _ _ ha).2, (hshown _ _ hb).1, (hshown _ _ hb).2]
    exact hlt

/-- A timeline is read in full exactly if no page ends, while there are more rows, with one of the
    two identifiers that cursors do not know, and a cursor is accepted exactly if it is for none of
    them. -/
theorem timeline_read (platform : TimelinePlatform) (store : TimelineStore) (kind : TimelineKind)
    (limit : PageSize) :
    ((∃ fuel items, followTimeline platform store kind limit.value fuel none = some items ∧
        ReadInFull platform store kind items) ↔
      ∀ k r, (k + 1) * limit.value <
          (rowsBehind platform.contentSha256 store kind none).length →
        (rowsBehind platform.contentSha256 store kind none)[(k + 1) * limit.value - 1]? = some r →
        r.id ≠ nilId ∧ r.id ≠ maxId) ∧
    ∀ cursor page next,
      readCollaborationTimelinePage platform store kind limit.value cursor = some page →
      page.nextCursor = some next →
      ∃ last, page.items.getLast? = some last ∧
        ((parseTimelineCursor platform.rounding next).isSome = true ↔
          last.recordId ≠ nilId ∧ last.recordId ≠ maxId) := by
  have hportable : ∀ (k : ℕ) (r : TimelineRow),
      (rowsBehind platform.contentSha256 store kind none)[k]? = some r →
      isPortableId r.id = true := by
    intro k r hr
    have hmem := mem_rowsBehind platform.contentSha256 store kind none r (List.mem_of_getElem? hr)
    exact (timelineRows_readable platform.contentSha256 store r hmem.1).portable
  have hfollow := followTimeline_iff platform store kind limit.value limit.positive
  constructor
  · constructor
    · rintro ⟨fuel, items, hitems, -⟩ k r hk hr
      have haccepted := ((hfollow fuel none none rfl).2 items hitems).1
      exact (isCursorId_iff r.id (hportable _ r hr)).mp (haccepted k r hk hr)
    · intro hids
      have haccepted : Accepted limit.value
          (rowsBehind platform.contentSha256 store kind none) := by
        intro k r hk hr
        exact (isCursorId_iff r.id (hportable _ r hr)).mpr (hids k r hk hr)
      exact ⟨_, _, (hfollow _ none none rfl).1 haccepted (Nat.lt_succ_self _),
        rowsBehind_inFull platform store kind⟩
  · intro cursor page next hpage hnext
    have hitems : ∃ c, page = timelineItems platform store kind limit.value c := by
      cases cursor with
      | none => exact ⟨none, (Option.some.inj hpage).symm⟩
      | some raw =>
          obtain ⟨c, -, rfl⟩ := Option.map_eq_some_iff.mp hpage
          exact ⟨some c, rfl⟩
    obtain ⟨c, rfl⟩ := hitems
    by_cases hlong : limit.value < (rowsBehind platform.contentSha256 store kind c).length
    · obtain ⟨last, -, hlast, hreadable, hcursor⟩ :=
        nextCursor_last platform store kind limit.value c limit.positive hlong
      rw [hcursor, Option.some.injEq] at hnext
      obtain ⟨init, hinit⟩ := List.getLast?_eq_some_iff.mp hlast
      have hmem : last ∈ rowsBehind platform.contentSha256 store kind c :=
        List.mem_of_mem_take (List.mem_of_getLast? hlast)
      obtain ⟨hrow, hkind⟩ := mem_rowsBehind platform.contentSha256 store kind c last hmem
      obtain ⟨projectId, hproject⟩ := Option.isSome_iff_exists.mp
        (admits_project platform.contentSha256 store kind last hrow hkind)
      obtain ⟨item, hitem, hid⟩ : ∃ item, timelineItem platform last = some item ∧
          item.recordId = last.id := by
        rw [timelineItem, hproject]
        exact ⟨_, rfl, rfl⟩
      refine ⟨item, ?_, ?_⟩
      · rw [readPage_eq, hinit, List.filterMap_append, List.filterMap_cons_some hitem,
          List.filterMap_nil, List.getLast?_concat]
      · rw [← hnext, parseTimelineCursor_encode platform.rounding last hreadable, hid,
          ← isCursorId_iff last.id hreadable.portable]
        split
        · next h => exact iff_of_true rfl h
        · next h => exact iff_of_false Bool.false_ne_true h
    · rw [readPage_eq, if_neg hlong] at hnext
      cases hnext

/-! ## An identifier that cursors do not know -/

def sampleAttempt (attemptId : String) (receivedAt : ℤ) : RecordRow :=
  { record := .submitted (.attempt {
      attemptId := attemptId
      scope := {
        projectId := "22222222-2222-4222-8222-222222222222"
        workItemId := "44444444-4444-4444-8444-444444444444"
        workPacketId := "55555555-5555-4555-8555-555555555555" }
      participantRefId := "66666666-6666-4666-8666-666666666666"
      grantId := none
      supersedesRecordId := none })
    portableObjectId := attemptId
    producerClientId := some "client"
    historicalGrantId := none
    receivedAt := receivedAt
    restoredAt := none }

def sampleState (recordId : String) : StateRow :=
  { recordId := recordId, visibility := .privateTo, disposition := .pending
    lastOwnerEventId := none, changedAt := 20 }

/-- A ledger with two attempts, the later one under the identifier of all zeros. -/
def nilTimeline : TimelineStore :=
  { db := { emptyDb with
      records := [sampleAttempt nilId 20, sampleAttempt "77777777-7777-4777-8777-777777777777" 10]
      states := [sampleState nilId, sampleState "77777777-7777-4777-8777-777777777777"] }
    clients := []
    records_keyed := by decide +kernel
    states_keyed := by decide +kernel
    portable := by decide +kernel
    received := by decide +kernel }

def samplePlatform : TimelinePlatform :=
  { contentSha256 := fun _ => String.ofList (List.replicate 64 '0')
    rounding := { round := .finite, exact := fun _ _ => rfl }
    isControl := fun c => c.toNat < 32 }

/-- With one row a page, the second page cannot be asked for. -/
theorem nilTimeline_stops :
    ¬ ∃ fuel items, followTimeline samplePlatform nilTimeline .timeline 1 fuel none = some items ∧
      ReadInFull samplePlatform nilTimeline .timeline items := by
  rintro ⟨fuel, items, hitems, -⟩
  have haccepted := ((followTimeline_iff samplePlatform nilTimeline .timeline 1 Nat.one_pos fuel
    none none rfl).2 items hitems).1
  have hrows : (rowsBehind samplePlatform.contentSha256 nilTimeline .timeline none).map
      TimelineRow.id = [nilId, "77777777-7777-4777-8777-777777777777"] := by
    decide +kernel
  have hlength : (rowsBehind samplePlatform.contentSha256 nilTimeline .timeline none).length = 2 := by
    rw [← List.length_map (f := TimelineRow.id), hrows]
    rfl
  have hfirst := congrArg (fun ids : List String => ids[0]?) hrows
  simp only [List.getElem?_map] at hfirst
  obtain ⟨r, hr, hid⟩ := Option.map_eq_some_iff.mp hfirst
  have hknown := haccepted 0 r (by rw [hlength]; decide) hr
  rw [hid, nilId_ne_cursorId.1] at hknown
  cases hknown

end Mdevolved.Collaboration
