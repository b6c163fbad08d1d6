import Mdevolved.Elastic.RunDeltas
import Mdevolved.Lib.JsonToken
import Mdevolved.Collaboration.Canonical

/-!
# Cursors

A page of a Run's feed ends with a cursor, a text in which its reader carries where the page
ended. The text holds an object with a checksum of its other members, and there is no key to the
checksum. So whoever can make one text can make any, and what a text holds is whatever its
reader put there.

What is read back is compared with the request member by member. The members that name the Run
and the grant are compared strictly. The expiry is compared as a number, whatever it is, and the
sequence is not looked at before it is bound to a statement. So a text is read as it should be
exactly if the two are whole numbers, or the text is refused before that matters.

What the service writes itself it reads back, until it expires.

## Main definitions

* `Platform`: What is taken from the platform.
* `encodeCursor`, `decodeCursor`: Writing and reading a text.
* `Cursors.getRunDeltas`: One page of a feed, for a request with a text.
* `Carries`: What a text holds under its own checksum.
* `Sound`: What is to come of a text.

## Theorems

* `decodeCursor_sign`: A text is read back, whoever wrote it.
* `sound_iff`: When a text is read as it should be.
* `cursors_read`: When texts are read as they should be, and that those of the service are.
-/

namespace Mdevolved.Elastic.Cursors

open JsValue
open JsonToken (member member_of_mem number)
open Collaboration (canonicalizeCollaborationJson canonicalize_ok without TypeError)

/-- The characters of identifiers and digests. -/
def isIdChar (c : Char) : Bool :=
  (0x30 ≤ c.toNat && c.toNat ≤ 0x39) || (0x41 ≤ c.toNat && c.toNat ≤ 0x46) ||
    (0x61 ≤ c.toNat && c.toNat ≤ 0x66) || c = '-'

/-- The largest number up to which doubles tell whole numbers apart. -/
def maxSafeInteger : ℕ := 2 ^ 53 - 1

/-- What is taken from the platform: the digest of a text, the double next to a number, and which
    rows the database finds beyond a value that is bound for a number. It refuses some values. -/
structure Platform where
  sha256Hex : String → String
  round : Decimal → JsNumber
  beyond : Option JsValue → Option (ℕ → Bool)
  digest : ∀ text, (sha256Hex text).length = 64 ∧ ∀ c ∈ (sha256Hex text).toList, isIdChar c = true
  exact : ∀ n, n ≤ maxSafeInteger → round (Decimal.ofNat n) = .finite (Decimal.ofNat n)
  ordered : ∀ x i, JsNumber.toInt? x = some i →
    beyond (some (.num x)) = some (fun sequence : ℕ => decide (i < (sequence : ℤ)))

/-- The identifier of a project, a Run or a grant. -/
structure Uuid where
  text : String
  length : text.length = 36
  plain : ∀ c ∈ text.toList, isIdChar c = true

/-- The rows of the feed. Their sequences are keys of the table. -/
structure DeltaTable where
  rows : List RunDeltaRow
  keyed : rows.Pairwise (fun r t => r.deltaSequence ≠ t.deltaSequence)
  safe : ∀ row ∈ rows, row.deltaSequence ≤ maxSafeInteger

/-- A text that a request may have for a cursor. -/
structure CursorText where
  value : JsString
  admitted : 1 ≤ value.length ∧ value.length ≤ 2048

structure PageLimit where
  value : ℕ
  admitted : 1 ≤ value ∧ value ≤ maxR3DeltaPage

/-- A request in delta mode, as its schema lets it through. -/
structure GetRunContextRequest where
  projectId : Uuid
  runId : Uuid
  cursor : Option CursorText
  limit : Option PageLimit

structure RunDeltaPage where
  projectId : String
  runId : String
  cursor : Option JsString
  hasMore : Bool
  deltas : List RunDelta

/-- How a read ends without a page. What is thrown is either a problem, or the comparison of an
    object, or a value that the database does not bind. -/
inductive DeltaFailure
  | problem (problem : LeadOperationProblem)
  | typeError
  | unboundValue

def trimmed (value : JsString) : JsString :=
  (value.dropWhile (fun u => JsString.isSpace (Char.ofNat u.val))).rdropWhile
    (fun u => JsString.isSpace (Char.ofNat u.val))

/-- The text of a request, trimmed and measured by the schema. -/
def cursorSchema (value : JsString) : Option CursorText :=
  if h : 1 ≤ (trimmed value).length ∧ (trimmed value).length ≤ 2048 then
    some { value := trimmed value, admitted := h }
  else none

/-! ## Writing and reading -/

def isString (v : Option JsValue) (s : JsString) : Bool :=
  match v with
  | some (str t) => t = s
  | _ => false

def isNumber (v : Option JsValue) (n : ℕ) : Bool :=
  match v with
  | some (num x) => x = .finite (Decimal.ofNat n)
  | _ => false

def checksumName : JsString := JsString.ofText "checksum"

def cursorChecksum (platform : Platform) (value : JsValue) : Except TypeError JsString :=
  (canonicalizeCollaborationJson value).map (fun canonical =>
    JsString.ofText (platform.sha256Hex ("owd-run-delta-cursor-v1\x00" ++ canonical)))

/-- The members of a cursor, as it is written. -/
def payloadMembers (payload : CursorPayload) : List (JsString × JsValue) :=
  [(JsString.ofText "expiresAt", number payload.expiresAt),
    (JsString.ofText "grantId", str (JsString.ofText payload.grantId)),
    (JsString.ofText "projectId", str (JsString.ofText payload.projectId)),
    (JsString.ofText "runId", str (JsString.ofText payload.runId)),
    (JsString.ofText "sequence", number payload.sequence),
    (JsString.ofText "version", number 1)]

/-- An object with its checksum. -/
def withChecksum (members : List (JsString × JsValue)) (checksum : JsString) : JsValue :=
  obj (members ++ [(checksumName, str checksum)])

/-- A text for any members. -/
def sign (platform : Platform) (members : List (JsString × JsValue)) : Except TypeError JsString :=
  (cursorChecksum platform (obj members)).map (fun checksum =>
    Base64.encodeBase64Url (Utf8.encode (String.ofList (text (withChecksum members checksum)))))

def encodeCursor (platform : Platform) (payload : CursorPayload) : Except TypeError JsString :=
  sign platform (payloadMembers payload)

/-- The members of a value that has its own checksum. Only an object has one: null cannot be
    taken apart, and other values have no members of names. -/
def checkedMembers (platform : Platform) : JsValue → Option (List (JsString × JsValue))
  | obj members =>
      match cursorChecksum platform (obj (without checksumName members)) with
      | .error _ => none
      | .ok checksum => if isString (member members "checksum") checksum then some members else none
  | _ => none

/-- What `decodeCursor` tries. -/
def openCursor (platform : Platform) (value : JsString) : Option (List (JsString × JsValue)) := do
  let bytes ← Base64.decodeBase64Url value
  let decoded ← Utf8.decode bytes
  if 2048 < (JsString.ofText decoded).length then none
  else
    let parsed ← parse decoded.toList
    checkedMembers platform (rounded platform.round parsed)

def decodeCursor (platform : Platform) (value : JsString) :
    Except LeadOperationProblem (List (JsString × JsValue)) :=
  match openCursor platform value with
  | none => .error .cursorInvalid
  | some members => .ok members

/-! ## A page -/

/-- The members that are compared strictly. -/
def named (request : GetRunContextRequest) (grantId : Uuid) (members : List (JsString × JsValue)) :
    Bool :=
  isNumber (member members "version") 1 &&
    isString (member members "projectId") (JsString.ofText request.projectId.text) &&
    isString (member members "runId") (JsString.ofText request.runId.text) &&
    isString (member members "grantId") (JsString.ofText grantId.text)

/-- The value of a cursor that a page is to be read from. -/
def cursorSequence (platform : Platform) (request : GetRunContextRequest) (grantId : Uuid)
    (now : ℕ) (cursor : CursorText) : Except DeltaFailure (Option JsValue) :=
  match decodeCursor platform cursor.value with
  | .error problem => .error (.problem problem)
  | .ok members =>
      if named request grantId members = false then .error (.problem .cursorInvalid)
      else
        match atMost platform.round (member members "expiresAt") now with
        | none => .error .typeError
        | some true => .error (.problem .cursorInvalid)
        | some false => .ok (member members "sequence")

def resumeValue (platform : Platform) (request : GetRunContextRequest) (grantId : Uuid)
    (now : ℕ) : Except DeltaFailure (Option JsValue) :=
  match request.cursor with
  | none => .ok (some (number 0))
  | some cursor => cursorSequence platform request grantId now cursor

/-- The first rows that a statement finds, in the order of their sequences. -/
def selected (found : ℕ → Bool) (limit : ℕ) (rows : List RunDeltaRow) : List RunDeltaRow :=
  ((rows.filter (fun row => found row.deltaSequence)).insertionSort
    (fun r t => r.deltaSequence ≤ t.deltaSequence)).take limit

def pageLimit (request : GetRunContextRequest) : ℕ :=
  (request.limit.map PageLimit.value).getD maxR3DeltaPage

/-- The cursor of a page: none where the page is empty, and else where its last row is. -/
def pageCursor (platform : Platform) (request : GetRunContextRequest) (grantId : Uuid) (now : ℕ)
    (visible : List RunDeltaRow) : Except DeltaFailure (Option JsString) :=
  match visible.getLast? with
  | none => .ok none
  | some last =>
      match encodeCursor platform
          { expiresAt := now + cursorLifetimeSeconds
            grantId := grantId.text
            projectId := request.projectId.text
            runId := request.runId.text
            sequence := last.deltaSequence } with
      | .error _ => .error .typeError
      | .ok token => .ok (some token)

/-- One page of a Run's feed. `access` is what the authorization and the plane and actor checks
    came to: the reader's grant, or a refusal. -/
def getRunDeltas (platform : Platform) (table : DeltaTable) (request : GetRunContextRequest)
    (access : Except LeadOperationProblem Uuid) (now : ℕ) : Except DeltaFailure RunDeltaPage :=
  match access with
  | .error problem => .error (.problem problem)
  | .ok grantId =>
      match resumeValue platform request grantId now with
      | .error failure => .error failure
      | .ok value =>
          match platform.beyond value with
          | none => .error .unboundValue
          | some found =>
              let results := selected found (pageLimit request + 1)
                (ofRun request.projectId.text request.runId.text table.rows)
              let visible := results.take (pageLimit request)
              (pageCursor platform request grantId now visible).map (fun cursor =>
                { projectId := request.projectId.text
                  runId := request.runId.text
                  cursor := cursor
                  hasMore := pageLimit request < results.length
                  deltas := visible.map RunDeltaRow.toRunDelta })

/-! ## What is to come of a text -/

/-- What a text holds under its own checksum. -/
def Carries (platform : Platform) (value : JsString) (members : List (JsString × JsValue)) :
    Prop :=
  ∃ bytes decoded parsed checksum, Base64.decodeBase64Url value = some bytes ∧
    Utf8.decode bytes = some decoded ∧ (JsString.ofText decoded).length ≤ 2048 ∧
    parse decoded.toList = some parsed ∧ rounded platform.round parsed = obj members ∧
    cursorChecksum platform (obj (without checksumName members)) = .ok checksum ∧
    member members "checksum" = some (str checksum)

/-- A value is a whole number. -/
def IsWhole (v : Option JsValue) (i : ℤ) : Prop :=
  ∃ x, v = some (num x) ∧ x.toInt? = some i

/-- Members name a version, a project, a Run and a grant, an expiry and a sequence. -/
structure Names (request : GetRunContextRequest) (grantId : Uuid)
    (members : List (JsString × JsValue)) (expiresAt sequence : ℤ) : Prop where
  version : member members "version" = some (number 1)
  projectId : member members "projectId" = some (str (JsString.ofText request.projectId.text))
  runId : member members "runId" = some (str (JsString.ofText request.runId.text))
  grantId : member members "grantId" = some (str (JsString.ofText grantId.text))
  expiresAt : IsWhole (member members "expiresAt") expiresAt
  sequence : IsWhole (member members "sequence") sequence

/-- A page is the first deltas of the Run past a sequence, and tells whether there are more. -/
def Answers (table : DeltaTable) (request : GetRunContextRequest) (sequence : ℤ)
    (page : RunDeltaPage) : Prop :=
  Keyset.IsPage (fun delta => (delta.sequence : ℤ)) sequence (pageLimit request)
    (feed request.projectId.text request.runId.text table.rows) page.deltas page.hasMore

/-- A text is refused, or it names the request and is answered by the deltas past its sequence. -/
def Sound (platform : Platform) (table : DeltaTable) (request : GetRunContextRequest)
    (grantId : Uuid) (now : ℕ) (cursor : CursorText) : Prop :=
  getRunDeltas platform table { request with cursor := some cursor } (.ok grantId) now =
      .error (.problem .cursorInvalid) ∨
    ∃ members expiresAt sequence page, Carries platform cursor.value members ∧
      Names request grantId members expiresAt sequence ∧ now < expiresAt ∧
      getRunDeltas platform table { request with cursor := some cursor } (.ok grantId) now =
        .ok page ∧
      Answers table request sequence page

/-- Where a text holds what names the request, and its expiry does not compare as past, its expiry
    and its sequence are whole numbers. -/
def Typed (platform : Platform) (request : GetRunContextRequest) (grantId : Uuid) (now : ℕ)
    (cursor : CursorText) : Prop :=
  ∀ members, Carries platform cursor.value members → named request grantId members = true →
    atMost platform.round (member members "expiresAt") now ≠ some true →
    (∃ expiresAt, IsWhole (member members "expiresAt") expiresAt) ∧
      ∃ sequence, IsWhole (member members "sequence") sequence

theorem isString_iff (v : Option JsValue) (s : JsString) :
    isString v s = true ↔ v = some (str s) := by
  unfold isString
  split
  · next t =>
    rw [decide_eq_true_eq, Option.some.injEq, JsValue.str.injEq]
  · next hother =>
    refine iff_of_false Bool.false_ne_true (fun heq => hother s heq)

theorem isNumber_iff (v : Option JsValue) (n : ℕ) : isNumber v n = true ↔ v = some (number n) := by
  unfold isNumber
  split
  · next x =>
    rw [decide_eq_true_eq, number, Option.some.injEq, JsValue.num.injEq]
  · next hother =>
    refine iff_of_false Bool.false_ne_true (fun heq => hother _ heq)

section

variable (platform : Platform) (value : JsString)

/-- What is opened is what a text carries. -/
theorem openCursor_iff (members : List (JsString × JsValue)) :
    openCursor platform value = some members ↔ Carries platform value members := by
  have hchecked : ∀ v, checkedMembers platform v = some members ↔ v = obj members ∧
      ∃ checksum, cursorChecksum platform (obj (without checksumName members)) = .ok checksum ∧
        member members "checksum" = some (str checksum) := by
    intro v
    unfold checkedMembers
    split
    · next others =>
      cases hchecksum : cursorChecksum platform (obj (without checksumName others)) with
      | error error =>
          refine iff_of_false (by simp) ?_
          rintro ⟨heq, checksum, hok, -⟩
          rw [JsValue.obj.injEq] at heq
          rw [← heq, hchecksum] at hok
          cases hok
      | ok checksum =>
          dsimp only
          rw [Option.ite_none_right_eq_some, isString_iff, Option.some.injEq, JsValue.obj.injEq]
          constructor
          · rintro ⟨hmember, rfl⟩
            exact ⟨rfl, checksum, hchecksum, hmember⟩
          · rintro ⟨rfl, checksum', hok, hmember⟩
            rw [hchecksum, Except.ok.injEq] at hok
            exact ⟨hok ▸ hmember, rfl⟩
    · next hother =>
      refine iff_of_false (by simp) ?_
      rintro ⟨heq, -⟩
      exact hother members heq
  constructor
  · intro hopen
    simp only [openCursor, Option.bind_eq_bind, Option.bind_eq_some_iff,
      Option.ite_none_left_eq_some] at hopen
    obtain ⟨bytes, hbytes, decoded, hdecoded, hshort, parsed, hparsed, hopen⟩ := hopen
    obtain ⟨hrounded, checksum, hchecksum, hmember⟩ := (hchecked _).mp hopen
    exact ⟨bytes, decoded, parsed, checksum, hbytes, hdecoded, by omega, hparsed, hrounded,
      hchecksum, hmember⟩
  · rintro ⟨bytes, decoded, parsed, checksum, hbytes, hdecoded, hshort, hparsed, hrounded,
      hchecksum, hmember⟩
    simp only [openCursor, Option.bind_eq_bind, Option.bind_eq_some_iff,
      Option.ite_none_left_eq_some]
    exact ⟨bytes, hbytes, decoded, hdecoded, by omega, parsed, hparsed,
      (hchecked _).mpr ⟨hrounded, checksum, hchecksum, hmember⟩⟩

/-- A text carries one thing. -/
theorem carries_unique (members members' : List (JsString × JsValue)) (h : Carries platform value members)
    (h' : Carries platform value members') : members = members' := by
  rw [← openCursor_iff] at h h'
  exact Option.some.inj (h.symm.trans h')

theorem decodeCursor_ok (members : List (JsString × JsValue)) (h : Carries platform value members) :
    decodeCursor platform value = .ok members := by
  rw [decodeCursor, (openCursor_iff platform value members).mpr h]

end

theorem named_iff (request : GetRunContextRequest) (grantId : Uuid)
    (members : List (JsString × JsValue)) (expiresAt sequence : ℤ)
    (hexpiry : IsWhole (member members "expiresAt") expiresAt)
    (hsequence : IsWhole (member members "sequence") sequence) :
    named request grantId members = true ↔ Names request grantId members expiresAt sequence := by
  rw [named, Bool.and_eq_true, Bool.and_eq_true, Bool.and_eq_true, isNumber_iff, isString_iff,
    isString_iff, isString_iff]
  constructor
  · rintro ⟨⟨⟨hversion, hproject⟩, hrun⟩, hgrant⟩
    exact ⟨hversion, hproject, hrun, hgrant, hexpiry, hsequence⟩
  · intro h
    exact ⟨⟨⟨h.version, h.projectId⟩, h.runId⟩, h.grantId⟩

/-- A whole number compares as what it is. -/
theorem atMost_iff (round : Decimal → JsNumber) (v : Option JsValue) (n : ℕ) (i : ℤ)
    (h : IsWhole v i) : ∃ past, atMost round v n = some past ∧ (past = true ↔ i ≤ n) := by
  obtain ⟨x, rfl, hx⟩ := h
  exact ⟨x.atMost n, rfl, x.atMost_iff n i hx⟩

/-! ## Pages -/

/-- The names of the members of a cursor are told apart. -/
theorem payload_names (payload : CursorPayload) :
    ((payloadMembers payload).map Prod.fst).Nodup ∧
      checksumName ∉ (payloadMembers payload).map Prod.fst := by
  have hnames : (payloadMembers payload).map Prod.fst = ["expiresAt", "grantId", "projectId",
      "runId", "sequence", "version"].map JsString.ofText := rfl
  rw [hnames]
  decide +kernel

theorem payload_json (payload : CursorPayload) : IsJson (obj (payloadMembers payload)) := by
  rw [IsJson, membersJson_iff]
  refine ⟨(payload_names payload).1, fun m hm => ?_⟩
  simp only [payloadMembers, List.mem_cons, List.not_mem_nil, or_false] at hm
  rcases hm with rfl | rfl | rfl | rfl | rfl | rfl <;> simp [IsJson, number]

/-- A checksum can be taken of whatever JSON can hold. -/
theorem sign_ok (platform : Platform) (members : List (JsString × JsValue))
    (h : IsJson (obj members)) :
    ∃ checksum : String, checksum.length = 64 ∧ (∀ c ∈ checksum.toList, isIdChar c = true) ∧
      cursorChecksum platform (obj members) = .ok (JsString.ofText checksum) ∧
      sign platform members = .ok (Base64.encodeBase64Url (Utf8.encode
        (String.ofList (text (withChecksum members (JsString.ofText checksum)))))) := by
  obtain ⟨hlength, hplain⟩ := platform.digest
    ("owd-run-delta-cursor-v1\x00" ++ String.ofList (text (normal (obj members))))
  have hchecksum : cursorChecksum platform (obj members) = .ok (JsString.ofText
      (platform.sha256Hex
        ("owd-run-delta-cursor-v1\x00" ++ String.ofList (text (normal (obj members)))))) := by
    rw [cursorChecksum, canonicalize_ok _ h]
    rfl
  refine ⟨_, hlength, hplain, hchecksum, ?_⟩
  rw [sign, hchecksum]
  rfl

theorem pageCursor_ok (platform : Platform) (request : GetRunContextRequest) (grantId : Uuid)
    (now : ℕ) (visible : List RunDeltaRow) :
    ∃ cursor, pageCursor platform request grantId now visible = .ok cursor := by
  unfold pageCursor
  split
  · exact ⟨none, rfl⟩
  · obtain ⟨checksum, -, -, -, hsign⟩ := sign_ok platform _ (payload_json _)
    rw [encodeCursor, hsign]
    exact ⟨_, rfl⟩

/-- What a statement finds past a whole number is a keyset page. -/
theorem selected_eq_page (sequence : ℤ) (limit : ℕ) (rows : List RunDeltaRow) :
    selected (fun k : ℕ => decide (sequence < (k : ℤ))) limit rows =
      Keyset.page (fun row => (row.deltaSequence : ℤ)) sequence limit rows := by
  have horder : (fun r t : RunDeltaRow => r.deltaSequence ≤ t.deltaSequence) =
      (fun r t : RunDeltaRow => (r.deltaSequence : ℤ) ≤ (t.deltaSequence : ℤ)) := by
    funext r t
    rw [Int.ofNat_le]
  rw [selected, Keyset.page, Keyset.beyond]
  congr 2

theorem feed_keyed (table : DeltaTable) (projectId runId : String) :
    (feed projectId runId table.rows).Pairwise
      (fun d e => (d.sequence : ℤ) ≠ (e.sequence : ℤ)) := by
  rw [feed, List.pairwise_map]
  refine (table.keyed.filter _).imp (fun hne heq => hne ?_)
  exact Int.ofNat_inj.mp heq

/-- A page that is read past a whole number answers the request. -/
theorem getRunDeltas_answers (platform : Platform) (table : DeltaTable)
    (request : GetRunContextRequest) (grantId : Uuid) (now : ℕ) (v : Option JsValue) (sequence : ℤ)
    (hresume : resumeValue platform request grantId now = .ok v) (hv : IsWhole v sequence) :
    ∃ page, getRunDeltas platform table request (.ok grantId) now = .ok page ∧
      Answers table request sequence page := by
  obtain ⟨x, rfl, hx⟩ := hv
  obtain ⟨cursor, hcursor⟩ := pageCursor_ok platform request grantId now
    ((selected (fun k : ℕ => decide (sequence < (k : ℤ))) (pageLimit request + 1)
      (ofRun request.projectId.text request.runId.text table.rows)).take (pageLimit request))
  unfold getRunDeltas
  simp only [hresume, platform.ordered x sequence hx, hcursor]
  refine ⟨_, rfl, ?_⟩
  have hpage := Keyset.isPage_page (fun delta : RunDelta => (delta.sequence : ℤ)) sequence
    (pageLimit request) (feed request.projectId.text request.runId.text table.rows)
    (feed_keyed table _ _)
  rw [feed, Keyset.page_map, Keyset.page_map, List.length_map] at hpage
  rw [Answers, selected_eq_page, Keyset.take_page _ _ _ _ _ (Nat.le_succ _)]
  exact hpage

/-! ## Texts -/

section Texts

variable (platform : Platform) (table : DeltaTable) (request : GetRunContextRequest)
  (grantId : Uuid) (now : ℕ) (cursor : CursorText)

/-- A text that names the request and has not expired is read from its sequence on. -/
theorem cursorSequence_ok (members : List (JsString × JsValue))
    (hcarries : Carries platform cursor.value members) (hnamed : named request grantId members = true)
    (hpast : atMost platform.round (member members "expiresAt") now = some false) :
    cursorSequence platform request grantId now cursor = .ok (member members "sequence") := by
  simp only [cursorSequence, decodeCursor_ok _ _ _ hcarries, hnamed, hpast, Bool.true_eq_false,
    if_false]

/-- Once it is known where to read on from, nothing is said of the text. -/
theorem getRunDeltas_resumed (v : Option JsValue)
    (hresume : resumeValue platform request grantId now = .ok v) :
    getRunDeltas platform table request (.ok grantId) now ≠ .error (.problem .cursorInvalid) := by
  unfold getRunDeltas
  simp only [hresume]
  cases platform.beyond v with
  | none => simp
  | some found =>
      obtain ⟨token, htoken⟩ := pageCursor_ok platform request grantId now
        ((selected found (pageLimit request + 1)
          (ofRun request.projectId.text request.runId.text table.rows)).take (pageLimit request))
      simp [htoken, Except.map]

/-- A text is refused unless it carries what names the request and does not compare as past. -/
theorem refused_iff :
    getRunDeltas platform table { request with cursor := some cursor } (.ok grantId) now =
        .error (.problem .cursorInvalid) ↔
      ∀ members, Carries platform cursor.value members → named request grantId members = true →
        atMost platform.round (member members "expiresAt") now = some true := by
  have hvalue : resumeValue platform { request with cursor := some cursor } grantId now =
      cursorSequence platform request grantId now cursor := rfl
  have hfailed : ∀ failure, cursorSequence platform request grantId now cursor = .error failure →
      getRunDeltas platform table { request with cursor := some cursor } (.ok grantId) now =
        .error failure := by
    intro failure hsequence
    unfold getRunDeltas
    simp only [hvalue, hsequence]
  constructor
  · intro hrefused members hcarries hnamed
    cases hpast : atMost platform.round (member members "expiresAt") now with
    | none =>
        have herror : cursorSequence platform request grantId now cursor = .error .typeError := by
          simp only [cursorSequence, decodeCursor_ok _ _ _ hcarries, hnamed, hpast,
            Bool.true_eq_false, if_false]
        rw [hfailed _ herror] at hrefused
        cases hrefused
    | some past =>
        cases past with
        | true => rfl
        | false =>
            have hok := cursorSequence_ok platform request grantId now cursor members hcarries
              hnamed hpast
            exact absurd hrefused (getRunDeltas_resumed platform table _ grantId now _ hok)
  · intro hpast
    apply hfailed
    cases hopen : openCursor platform cursor.value with
    | none => simp only [cursorSequence, decodeCursor, hopen]
    | some members =>
        have hcarries := (openCursor_iff platform cursor.value members).mp hopen
        cases hnamed : named request grantId members with
        | false => simp only [cursorSequence, decodeCursor, hopen, hnamed, if_true]
        | true =>
            simp only [cursorSequence, decodeCursor, hopen, hnamed, hpast members hcarries hnamed,
              Bool.true_eq_false, if_false]

/-- A text is read as it should be exactly if what may matter of it is whole numbers. -/
theorem sound_iff :
    Sound platform table request grantId now cursor ↔
      Typed platform request grantId now cursor := by
  constructor
  · intro hsound members hcarries hnamed hpast
    rcases hsound with hrefused | ⟨members', expiresAt, sequence, page, hcarries', hnames, -⟩
    · exact absurd ((refused_iff platform table request grantId now cursor).mp hrefused members
        hcarries hnamed) hpast
    · rw [carries_unique platform cursor.value members members' hcarries hcarries']
      exact ⟨⟨expiresAt, hnames.expiresAt⟩, sequence, hnames.sequence⟩
  · intro htyped
    by_cases hrefused : ∀ members, Carries platform cursor.value members →
        named request grantId members = true →
        atMost platform.round (member members "expiresAt") now = some true
    · exact Or.inl ((refused_iff platform table request grantId now cursor).mpr hrefused)
    · push Not at hrefused
      obtain ⟨members, hcarries, hnamed, hnotpast⟩ := hrefused
      obtain ⟨⟨expiresAt, hexpiry⟩, sequence, hsequence⟩ := htyped members hcarries hnamed hnotpast
      obtain ⟨past, hpast, hless⟩ := atMost_iff platform.round _ now expiresAt hexpiry
      have hfuture : past = false := by
        cases past with
        | false => rfl
        | true => exact absurd hpast hnotpast
      rw [hfuture] at hpast hless
      obtain ⟨page, hpage, hanswers⟩ := getRunDeltas_answers platform table
        { request with cursor := some cursor } grantId now _ sequence
        (cursorSequence_ok platform request grantId now cursor members hcarries hnamed hpast)
        hsequence
      refine Or.inr ⟨members, expiresAt, sequence, page, hcarries,
        (named_iff request grantId members expiresAt sequence hexpiry hsequence).mp hnamed, ?_,
        hpage, hanswers⟩
      by_contra hlate
      exact Bool.false_ne_true (hless.mpr (by omega))

end Texts

/-! ## Texts that are written -/

section Signing

variable (members : List (JsString × JsValue)) (checksum : JsString)
  (hnew : checksumName ∉ members.map Prod.fst)

include hnew in
theorem withChecksum_names (hnodup : (members.map Prod.fst).Nodup) :
    ((members ++ [(checksumName, str checksum)]).map Prod.fst).Nodup := by
  rw [List.map_append, List.map_singleton, ← List.concat_eq_append, List.nodup_concat]
  exact ⟨hnew, hnodup⟩

include hnew in
theorem withChecksum_json (hjson : IsJson (obj members)) : IsJson (withChecksum members checksum) := by
  rw [IsJson] at hjson
  rw [withChecksum, IsJson, membersJson_iff]
  refine ⟨withChecksum_names members checksum hnew hjson.1, fun m hm => ?_⟩
  rcases List.mem_append.mp hm with hm | hm
  · exact (membersJson_iff _).mp hjson.2 m hm
  · rw [List.mem_singleton.mp hm]
    simp [IsJson]

include hnew in
theorem without_withChecksum :
    without checksumName (members ++ [(checksumName, str checksum)]) = members := by
  have hothers : members.filter (fun m => m.1 ≠ checksumName) = members := by
    rw [List.filter_eq_self]
    intro m hm
    rw [decide_eq_true_eq]
    intro heq
    exact hnew (heq ▸ List.mem_map_of_mem hm)
  rw [without, List.filter_append, hothers, List.filter_cons_of_neg (by simp), List.filter_nil,
    List.append_nil]

theorem withChecksum_rounded (round : Decimal → JsNumber)
    (hround : ∀ m ∈ members, rounded round m.2 = m.2) :
    rounded round (withChecksum members checksum) = withChecksum members checksum := by
  apply rounded_obj
  intro m hm
  rcases List.mem_append.mp hm with hm | hm
  · exact hround m hm
  · rw [List.mem_singleton.mp hm]
    simp [rounded]

/-- The text begins with a brace, and so with no byte order mark. -/
theorem withChecksum_text :
    ∃ cs, text (withChecksum members checksum) = '\x7b' :: cs ∧
      Utf8.stripBom (String.ofList ('\x7b' :: cs)) = String.ofList ('\x7b' :: cs) := by
  refine ⟨_, by rw [withChecksum, text], ?_⟩
  rw [Utf8.stripBom_eq_self_iff, String.toList_ofList, List.head?_cons, ne_eq, Option.some.injEq]
  decide

end Signing

/-- A text is read back, whoever wrote it: the checksum of any members can be taken by anyone. -/
theorem decodeCursor_sign (platform : Platform) (members : List (JsString × JsValue))
    (hjson : IsJson (obj members)) (hnew : checksumName ∉ members.map Prod.fst)
    (hround : ∀ m ∈ members, rounded platform.round m.2 = m.2)
    (hshort : ∀ checksum : String, checksum.length = 64 →
      (∀ c ∈ checksum.toList, isIdChar c = true) →
      (text (withChecksum members (JsString.ofText checksum))).length ≤ 380) :
    ∃ checksum token, sign platform members = .ok token ∧
      1 ≤ token.length ∧ token.length ≤ 2048 ∧
      (∀ u ∈ token, ∃ n, u = Base64.toAddress (Base64.letter n)) ∧
      Carries platform token (members ++ [(checksumName, str checksum)]) := by
  obtain ⟨checksum, hlength, hplain, hchecksum, hsign⟩ := sign_ok platform members hjson
  have hsize := hshort checksum hlength hplain
  have hparse := parse_text _ (withChecksum_json members (JsString.ofText checksum) hnew hjson)
  obtain ⟨cs, htext, hmark⟩ := withChecksum_text members (JsString.ofText checksum)
  rw [htext] at hsign hsize hparse
  have hunits := JsString.length_ofText_le (String.ofList ('\x7b' :: cs))
  have hbytes := Utf8.length_encode_ofList_le ('\x7b' :: cs)
  have hletters := Base64.length_sextets (Utf8.encode (String.ofList ('\x7b' :: cs)))
  have hfilled : 0 < (Utf8.encode (String.ofList ('\x7b' :: cs))).length := by
    have hbrace := Char.utf8Size_pos '\x7b'
    rw [Utf8.length_encode, String.ofList_cons, String.utf8ByteSize_append,
      String.utf8ByteSize_singleton]
    omega
  rw [String.toList_ofList] at hunits
  rw [IsJson] at hjson
  refine ⟨JsString.ofText checksum, _, hsign, ?_, ?_, Base64.encode_letter _, _,
    String.ofList ('\x7b' :: cs), _, JsString.ofText checksum, Base64.decode_encode _, ?_, ?_, ?_,
    withChecksum_rounded members _ platform.round hround, ?_, ?_⟩
  · rw [Base64.length_encode, hletters]
    split <;> omega
  · rw [Base64.length_encode, hletters]
    split <;> omega
  · rw [Utf8.decode_encode, hmark]
  · omega
  · rw [String.toList_ofList]
    exact hparse
  · rw [without_withChecksum members _ hnew]
    exact hchecksum
  · exact member_of_mem _ "checksum" _ (withChecksum_names members _ hnew hjson.1)
      (List.mem_append_right _ List.mem_cons_self)

/-! ## Texts of the service -/

/-- What the service writes a text for. -/
structure Issued where
  expiresAt : ℕ
  grantId : Uuid
  projectId : Uuid
  runId : Uuid
  sequence : ℕ
  safe : expiresAt ≤ maxSafeInteger ∧ sequence ≤ maxSafeInteger

def Issued.payload (issued : Issued) : CursorPayload :=
  { expiresAt := issued.expiresAt
    grantId := issued.grantId.text
    projectId := issued.projectId.text
    runId := issued.runId.text
    sequence := issued.sequence }

theorem number_length (n : ℕ) (hn : n ≤ maxSafeInteger) : (text (number n)).length ≤ 16 := by
  have hdigits : (Decimal.natDigits n).length ≤ 16 := by
    rw [Decimal.natDigits, List.length_map, List.length_reverse,
      Nat.digits_length_le_iff (by decide)]
    exact Nat.lt_of_le_of_lt hn (by decide)
  rw [number, text, numberText]
  by_cases hzero : n = 0
  · subst hzero
    decide
  · rw [Decimal.toChars_ofNat n hzero (by omega), List.length_map]
    exact hdigits

theorem quote_length (s : String) (h : ∀ c ∈ s.toList, isIdChar c = true) :
    (JsString.ofText s).quote.length = s.length + 2 := by
  have hplain : ∀ c : Char, isIdChar c = true →
      32 ≤ c.toNat ∧ c.toNat < 0xD800 ∧ c ≠ '"' ∧ c ≠ '\\' := by
    intro c hc
    simp only [isIdChar, Bool.or_eq_true, Bool.and_eq_true, decide_eq_true_eq] at hc
    refine ⟨?_, ?_, ?_, ?_⟩
    · rcases hc with ((hc | hc) | hc) | rfl
      · omega
      · omega
      · omega
      · decide
    · rcases hc with ((hc | hc) | hc) | rfl
      · omega
      · omega
      · omega
      · decide
    · rintro rfl
      revert hc
      decide
    · rintro rfl
      revert hc
      decide
  rw [JsString.quote_ofText s (fun c hc => hplain c (h c hc)), List.length_cons,
    List.length_append, List.length_singleton, String.length_toList]

/-- What the service writes is short. -/
theorem payload_size (issued : Issued) (checksum : String) (hlength : checksum.length = 64)
    (hplain : ∀ c ∈ checksum.toList, isIdChar c = true) :
    (text (withChecksum (payloadMembers issued.payload)
      (JsString.ofText checksum))).length ≤ 380 := by
  have hnames : ["expiresAt", "grantId", "projectId", "runId", "sequence", "version",
      "checksum"].map (fun name => (JsString.ofText name).quote.length) =
        [11, 9, 11, 7, 10, 9, 10] := by
    decide +kernel
  simp only [List.map_cons, List.map_nil, List.cons.injEq, and_true] at hnames
  obtain ⟨hexpiresAt, hgrantId, hprojectId, hrunId, hsequence, hversion, hchecksum⟩ := hnames
  have hgrant := quote_length issued.grantId.text issued.grantId.plain
  have hproject := quote_length issued.projectId.text issued.projectId.plain
  have hrun := quote_length issued.runId.text issued.runId.plain
  have hdigest := quote_length checksum hplain
  have hexpiry := number_length issued.expiresAt issued.safe.1
  have hposition := number_length issued.sequence issued.safe.2
  have hone := number_length 1 (by decide)
  rw [issued.grantId.length] at hgrant
  rw [issued.projectId.length] at hproject
  rw [issued.runId.length] at hrun
  rw [hlength] at hdigest
  simp only [withChecksum, payloadMembers, checksumName, Issued.payload, List.cons_append,
    List.nil_append, text, membersText, List.length_cons, List.length_append, List.length_nil,
    hexpiresAt, hgrantId, hprojectId, hrunId, hsequence, hversion, hchecksum, hgrant, hproject,
    hrun, hdigest]
  omega

/-- A text in the letters of addresses is left as it is by a schema. -/
theorem cursorSchema_letters (token : JsString) (hsize : 1 ≤ token.length ∧ token.length ≤ 2048)
    (hletters : ∀ u ∈ token, ∃ n, u = Base64.toAddress (Base64.letter n)) :
    cursorSchema token = some { value := token, admitted := hsize } := by
  have hspace : ∀ n, JsString.isSpace (Char.ofNat (Base64.toAddress (Base64.letter n)).val) =
      false := by
    decide +kernel
  have hplain : ∀ u ∈ token, ¬ JsString.isSpace (Char.ofNat u.val) = true := by
    intro u hu
    obtain ⟨n, rfl⟩ := hletters u hu
    rw [hspace n]
    exact Bool.false_ne_true
  have htrimmed : trimmed token = token := by
    rw [trimmed, List.dropWhile_eq_self_iff.mpr, List.rdropWhile_eq_self_iff]
    · intro hne
      exact hplain _ (List.getLast_mem hne)
    · intro hpos
      exact hplain _ (List.getElem_mem hpos)
  unfold cursorSchema
  simp only [htrimmed, dif_pos hsize]

/-- What the service writes is let through by the schema of requests, and read back. -/
theorem encodeCursor_carries (platform : Platform) (issued : Issued) :
    ∃ checksum token, encodeCursor platform issued.payload = .ok token ∧
      (∃ cursor, cursorSchema token = some cursor ∧ cursor.value = token) ∧
      Carries platform token (payloadMembers issued.payload ++ [(checksumName, str checksum)]) := by
  have hround : ∀ m ∈ payloadMembers issued.payload, rounded platform.round m.2 = m.2 := by
    intro m hm
    have hexpiry := platform.exact issued.expiresAt issued.safe.1
    have hposition := platform.exact issued.sequence issued.safe.2
    have hone := platform.exact 1 (by decide)
    simp only [payloadMembers, Issued.payload, List.mem_cons, List.not_mem_nil, or_false] at hm
    rcases hm with rfl | rfl | rfl | rfl | rfl | rfl <;>
      simp [rounded, number, hexpiry, hposition, hone]
  obtain ⟨checksum, token, hsign, hlow, hhigh, hletters, hcarries⟩ := decodeCursor_sign platform
    (payloadMembers issued.payload) (payload_json _) (payload_names _).2 hround
    (payload_size issued)
  exact ⟨checksum, token, hsign,
    ⟨_, cursorSchema_letters token ⟨hlow, hhigh⟩ hletters, rfl⟩, hcarries⟩

section Payloads

variable (payload : CursorPayload) (checksum : JsString)

/-- The members of a payload, with a checksum or not. -/
theorem payload_member (name : String) (v : JsValue)
    (h : (JsString.ofText name, v) ∈ payloadMembers payload) :
    member (payloadMembers payload ++ [(checksumName, str checksum)]) name = some v := by
  obtain ⟨hnodup, hnew⟩ := payload_names payload
  exact member_of_mem _ name v (withChecksum_names _ checksum hnew hnodup)
    (List.mem_append_left _ h)

/-- A payload names a request if its identifiers are those of the request. -/
theorem named_payload (request : GetRunContextRequest) (grantId : Uuid) :
    named request grantId (payloadMembers payload ++ [(checksumName, str checksum)]) = true ↔
      payload.projectId = request.projectId.text ∧ payload.runId = request.runId.text ∧
        payload.grantId = grantId.text := by
  rw [named, payload_member payload checksum "version" (number 1) (by simp [payloadMembers]),
    payload_member payload checksum "projectId" (str (JsString.ofText payload.projectId))
      (by simp [payloadMembers]),
    payload_member payload checksum "runId" (str (JsString.ofText payload.runId))
      (by simp [payloadMembers]),
    payload_member payload checksum "grantId" (str (JsString.ofText payload.grantId))
      (by simp [payloadMembers]), Bool.and_eq_true, Bool.and_eq_true, Bool.and_eq_true,
    isNumber_iff, isString_iff, isString_iff, isString_iff]
  simp only [Option.some.injEq, JsValue.str.injEq, JsString.ofText_injective.eq_iff, true_and,
    and_assoc]

theorem atMost_payload (round : Decimal → JsNumber) (now : ℕ) :
    atMost round (member (payloadMembers payload ++ [(checksumName, str checksum)]) "expiresAt")
      now = some (decide (payload.expiresAt ≤ now)) := by
  rw [payload_member payload checksum "expiresAt" (number payload.expiresAt)
    (by simp [payloadMembers])]
  have hless := JsNumber.atMost_iff (.finite (Decimal.ofNat payload.expiresAt)) now _
    (Decimal.toInt?_ofNat payload.expiresAt)
  rw [Int.ofNat_le] at hless
  change some (JsNumber.atMost (.finite (Decimal.ofNat payload.expiresAt)) now) = _
  rw [Option.some.injEq, Bool.eq_iff_iff, decide_eq_true_eq]
  exact hless

end Payloads

theorem mem_selected (found : ℕ → Bool) (limit : ℕ) (rows : List RunDeltaRow) (row : RunDeltaRow)
    (h : row ∈ selected found limit rows) : row ∈ rows := by
  have hsorted := List.mem_of_mem_take h
  rw [List.mem_insertionSort] at hsorted
  exact (List.mem_filter.mp hsorted).1

/-- A page with a cursor has a last row, which the cursor was written for. -/
theorem getRunDeltas_cursor (platform : Platform) (table : DeltaTable)
    (request : GetRunContextRequest) (grantId : Uuid) (now : ℕ) (page : RunDeltaPage)
    (token : JsString) (hpage : getRunDeltas platform table request (.ok grantId) now = .ok page)
    (htoken : page.cursor = some token) :
    ∃ last ∈ table.rows, page.deltas.getLast? = some last.toRunDelta ∧
      encodeCursor platform
        { expiresAt := now + cursorLifetimeSeconds
          grantId := grantId.text
          projectId := request.projectId.text
          runId := request.runId.text
          sequence := last.deltaSequence } = .ok token := by
  unfold getRunDeltas at hpage
  dsimp only at hpage
  cases hresume : resumeValue platform request grantId now with
  | error failure =>
      rw [hresume] at hpage
      cases hpage
  | ok v =>
      rw [hresume] at hpage
      dsimp only at hpage
      cases hfound : platform.beyond v with
      | none =>
          rw [hfound] at hpage
          cases hpage
      | some found =>
          rw [hfound] at hpage
          dsimp only at hpage
          cases hcursor : pageCursor platform request grantId now
              ((selected found (pageLimit request + 1)
                (ofRun request.projectId.text request.runId.text table.rows)).take
                  (pageLimit request)) with
          | error failure =>
              rw [hcursor] at hpage
              cases hpage
          | ok cursor =>
              rw [hcursor] at hpage
              simp only [Except.map, Except.ok.injEq] at hpage
              rw [← hpage] at htoken ⊢
              dsimp only at htoken
              subst htoken
              unfold pageCursor at hcursor
              split at hcursor
              · cases hcursor
              · next last hlast =>
                have hmem := mem_selected _ _ _ _ (List.mem_of_mem_take (List.mem_of_getLast? hlast))
                refine ⟨last, (List.mem_filter.mp hmem).1, ?_, ?_⟩
                · rw [List.getLast?_map, hlast]
                  rfl
                · split at hcursor
                  · cases hcursor
                  · next written hwritten =>
                    rw [Except.ok.injEq, Option.some.injEq] at hcursor
                    rw [hwritten, hcursor]

/-- A time in seconds. The clock of the platform ends at some point. -/
structure Instant where
  seconds : ℕ
  bounded : seconds ≤ 8640000000000

/-- Texts are read as they should be exactly where what matters of them is whole numbers, and the
    text of a page is let through and read, until it expires, from where the page ended. -/
theorem cursors_read (platform : Platform) (table : DeltaTable) (request : GetRunContextRequest)
    (grantId : Uuid) (now : Instant) :
    (∀ cursor, Sound platform table request grantId now.seconds cursor ↔
      Typed platform request grantId now.seconds cursor) ∧
    ∀ page token, getRunDeltas platform table request (.ok grantId) now.seconds = .ok page →
      page.cursor = some token →
      ∃ cursor last, cursorSchema token = some cursor ∧ page.deltas.getLast? = some last ∧
        ∀ later limit time, time < now.seconds + cursorLifetimeSeconds →
          ∃ page', getRunDeltas platform later
              { request with cursor := some cursor, limit := limit } (.ok grantId) time =
                .ok page' ∧
            Answers later { request with limit := limit } last.sequence page' := by
  refine ⟨fun cursor => sound_iff platform table request grantId now.seconds cursor, ?_⟩
  intro page token hpage htoken
  obtain ⟨last, hlast, hend, hencode⟩ := getRunDeltas_cursor platform table request grantId
    now.seconds page token hpage htoken
  have hsafe : now.seconds + cursorLifetimeSeconds ≤ maxSafeInteger := by
    have hclock := now.bounded
    simp only [cursorLifetimeSeconds, maxSafeInteger]
    omega
  let issued : Issued :=
    { expiresAt := now.seconds + cursorLifetimeSeconds
      grantId := grantId
      projectId := request.projectId
      runId := request.runId
      sequence := last.deltaSequence
      safe := ⟨hsafe, table.safe last hlast⟩ }
  obtain ⟨checksum, token', hencode', ⟨cursor, hschema, hvalue⟩, hcarries⟩ :=
    encodeCursor_carries platform issued
  have hsame : token = token' := Except.ok.inj (hencode.symm.trans hencode')
  refine ⟨cursor, last.toRunDelta, hsame ▸ hschema, hend, ?_⟩
  intro later limit time htime
  rw [← hvalue] at hcarries
  have hpast := (atMost_payload issued.payload checksum platform.round time).trans
    (congrArg some (decide_eq_false (Nat.not_le_of_lt htime)))
  have hresume := cursorSequence_ok platform
    { request with cursor := some cursor, limit := limit } grantId time cursor _ hcarries
    ((named_payload issued.payload checksum _ grantId).mpr ⟨rfl, rfl, rfl⟩) hpast
  rw [payload_member issued.payload checksum "sequence" (number last.deltaSequence)
    (by simp [payloadMembers, issued, Issued.payload])] at hresume
  exact getRunDeltas_answers platform later
    { request with cursor := some cursor, limit := limit } grantId time _ last.deltaSequence
    hresume ⟨_, rfl, Decimal.toInt?_ofNat _⟩

/-! ## A text without an expiry -/

/-- The digests of two texts: of the members of a cursor without an expiry, and of those of a
    cursor that the service writes. -/
def sampleDigests : List (String × String) :=
  [("owd-run-delta-cursor-v1\x00\x7b\"grantId\":\"11111111-1111-4111-8111-111111111111\",\"projectId\":\"22222222-2222-4222-8222-222222222222\",\"runId\":\"33333333-3333-4333-8333-333333333333\",\"sequence\":0,\"version\":1\x7d",
    "419fb5dcc9c6f5515ec260167befa7a543606d3969ce326477cabf76f0a88fb3"),
  ("owd-run-delta-cursor-v1\x00\x7b\"expiresAt\":87400,\"grantId\":\"11111111-1111-4111-8111-111111111111\",\"projectId\":\"22222222-2222-4222-8222-222222222222\",\"runId\":\"33333333-3333-4333-8333-333333333333\",\"sequence\":7,\"version\":1\x7d",
    "109147501b2e2c46ca37c87cbf62784d676abf4d108fc26ec82d3d3c065e42a0")]

def samplePlatform : Platform :=
  { sha256Hex := fun text =>
      ((sampleDigests.find? (fun p => p.1 = text)).map Prod.snd).getD (String.ofList
        (List.replicate 64 '0'))
    round := .finite
    beyond := fun v =>
      match v with
      | some (.num x) => x.toInt?.map (fun i (sequence : ℕ) => decide (i < (sequence : ℤ)))
      | _ => none
    digest := by
      intro text
      cases hfind : sampleDigests.find? (fun p => p.1 = text) with
      | none =>
          rw [Option.map_none, Option.getD_none]
          exact ⟨by decide +kernel, List.all_eq_true.mp (by decide +kernel)⟩
      | some p =>
          have hall : ∀ p ∈ sampleDigests, p.2.length = 64 ∧ p.2.toList.all isIdChar = true := by
            decide +kernel
          have hp := hall p (List.mem_of_find?_eq_some hfind)
          exact ⟨hp.1, List.all_eq_true.mp hp.2⟩
    exact := fun _ _ => rfl
    ordered := by
      intro x i h
      simp only [h, Option.map_some] }

def sampleUuid (text : String) (h : text.length = 36 ∧ text.toList.all isIdChar = true) : Uuid :=
  { text := text, length := h.1, plain := List.all_eq_true.mp h.2 }

def sampleGrant : Uuid := sampleUuid "11111111-1111-4111-8111-111111111111" (by decide +kernel)

def sampleRequest : GetRunContextRequest :=
  { projectId := sampleUuid "22222222-2222-4222-8222-222222222222" (by decide +kernel)
    runId := sampleUuid "33333333-3333-4333-8333-333333333333" (by decide +kernel)
    cursor := none
    limit := none }

def sampleTable : DeltaTable :=
  { rows := [
      { deltaSequence := 7, deltaId := "delta", projectId := "22222222-2222-4222-8222-222222222222",
        runId := "33333333-3333-4333-8333-333333333333", recordType := .actor, recordId := "actor",
        contentSha256 := none, evidenceMetadata := none, occurredAt := 900, retentionTier := .hot,
        retainUntil := 605700 }]
    keyed := List.pairwise_singleton _ _
    safe := by decide }

/-- A long text, given in parts. -/
def ofParts (parts : List String) : JsString := parts.flatMap JsString.ofText

def expiryFreeMembers : List (JsString × JsValue) :=
  [(JsString.ofText "grantId", str (JsString.ofText sampleGrant.text)),
    (JsString.ofText "projectId", str (JsString.ofText sampleRequest.projectId.text)),
    (JsString.ofText "runId", str (JsString.ofText sampleRequest.runId.text)),
    (JsString.ofText "sequence", number 0),
    (JsString.ofText "version", number 1)]

/-- A cursor for the sample request, which names no expiry. -/
def expiryFree : CursorText :=
  { value := ofParts
      ["eyJncmFudElkIjoiMTExM", "TExMTEtMTExMS00MTExLT", "gxMTEtMTExMTExMTExMTE",
        "xIiwicHJvamVjdElkIjoi", "MjIyMjIyMjItMjIyMi00M", "jIyLTgyMjItMjIyMjIyMj",
        "IyMjIyIiwicnVuSWQiOiI", "zMzMzMzMzMy0zMzMzLTQz", "MzMtODMzMy0zMzMzMzMzM",
        "zMzMzMiLCJzZXF1ZW5jZS", "I6MCwidmVyc2lvbiI6MSw", "iY2hlY2tzdW0iOiI0MTlm",
        "YjVkY2M5YzZmNTUxNWVjM", "jYwMTY3YmVmYTdhNTQzNj", "A2ZDM5NjljZTMyNjQ3N2N",
        "hYmY3NmYwYTg4ZmIzIn0"]
    admitted := by decide +kernel }

theorem membersText_concat (members : List (JsString × JsValue)) (k : JsString) (v : JsValue)
    (hne : members ≠ []) :
    membersText (members ++ [(k, v)]) = membersText members ++ ',' :: (k.quote ++ ':' :: text v) := by
  induction members with
  | nil => exact absurd rfl hne
  | cons m rest ih =>
      cases rest with
      | nil => simp only [List.cons_append, List.nil_append, membersText, List.append_assoc]
      | cons n rest =>
          have hrest := ih (List.cons_ne_nil _ _)
          rw [List.cons_append] at hrest
          rw [List.cons_append, List.cons_append, membersText, hrest, membersText]
          simp only [List.append_assoc, List.cons_append]

theorem named_append (request : GetRunContextRequest) (grantId : Uuid)
    (members rest : List (JsString × JsValue)) (h : named request grantId members = true) :
    named request grantId (members ++ rest) = true := by
  have hmember : ∀ name v, member members name = some v →
      member (members ++ rest) name = some v := by
    intro name v hv
    obtain ⟨m, hm, rfl⟩ := Option.map_eq_some_iff.mp hv
    rw [member, List.find?_append, hm]
    rfl
  rw [named, Bool.and_eq_true, Bool.and_eq_true, Bool.and_eq_true, isNumber_iff, isString_iff,
    isString_iff, isString_iff] at h ⊢
  exact ⟨⟨⟨hmember _ _ h.1.1.1, hmember _ _ h.1.1.2⟩, hmember _ _ h.1.2⟩, hmember _ _ h.2⟩

theorem expiryFree_carries : ∃ checksum, Carries samplePlatform expiryFree.value
    (expiryFreeMembers ++ [(checksumName, str checksum)]) := by
  have hnames : (expiryFreeMembers.map Prod.fst).Nodup ∧
      checksumName ∉ expiryFreeMembers.map Prod.fst := by
    decide +kernel
  have hjson : IsJson (obj expiryFreeMembers) := by
    rw [IsJson, membersJson_iff]
    refine ⟨hnames.1, fun m hm => ?_⟩
    simp only [expiryFreeMembers, List.mem_cons, List.not_mem_nil, or_false] at hm
    rcases hm with rfl | rfl | rfl | rfl | rfl <;> simp [IsJson, number]
  have hround : ∀ m ∈ expiryFreeMembers, rounded samplePlatform.round m.2 = m.2 := by
    intro m hm
    simp only [expiryFreeMembers, List.mem_cons, List.not_mem_nil, or_false] at hm
    rcases hm with rfl | rfl | rfl | rfl | rfl <;> simp [rounded, number, samplePlatform]
  have hsize : ∀ checksum : String, checksum.length = 64 →
      (∀ c ∈ checksum.toList, isIdChar c = true) →
      (text (withChecksum expiryFreeMembers (JsString.ofText checksum))).length ≤ 380 := by
    intro checksum hlength hplain
    have hdigest := quote_length checksum hplain
    have hmembers : (membersText expiryFreeMembers).length = 171 := by decide +kernel
    have hname : (JsString.quote checksumName).length = 10 := by decide +kernel
    rw [withChecksum, text, membersText_concat expiryFreeMembers _ _ (by simp [expiryFreeMembers]),
      text]
    simp only [List.length_cons, List.length_append, List.length_nil, hmembers, hname, hdigest]
    omega
  obtain ⟨checksum, token, hsign, -, -, -, hcarries⟩ := decodeCursor_sign samplePlatform
    expiryFreeMembers hjson hnames.2 hround hsize
  have hvalue : (sign samplePlatform expiryFreeMembers).toOption = some expiryFree.value := by
    decide +kernel
  rw [hsign] at hvalue
  exact ⟨checksum, Option.some.inj hvalue ▸ hcarries⟩

/-- A cursor without an expiry is let through at any time. -/
theorem expiryFree_read :
    ¬ Sound samplePlatform sampleTable sampleRequest sampleGrant 1000 expiryFree := by
  obtain ⟨checksum, hcarries⟩ := expiryFree_carries
  have hnone : member (expiryFreeMembers ++ [(checksumName, str checksum)]) "expiresAt" = none := by
    have hnames : JsString.ofText "expiresAt" ∉ (expiryFreeMembers.map Prod.fst) ++
        [checksumName] := by
      decide +kernel
    rw [member, Option.map_eq_none_iff, List.find?_eq_none]
    intro m hm hname
    rw [decide_eq_true_eq] at hname
    apply hnames
    rw [← hname, ← List.map_singleton (f := Prod.fst) (a := (checksumName, str checksum)),
      ← List.map_append]
    exact List.mem_map_of_mem hm
  rw [sound_iff]
  intro htyped
  have hnamed := named_append sampleRequest sampleGrant expiryFreeMembers
    [(checksumName, str checksum)] (by decide +kernel)
  obtain ⟨⟨expiresAt, x, hx, -⟩, -⟩ := htyped _ hcarries hnamed (by rw [hnone]; simp [atMost])
  rw [hnone] at hx
  cases hx

/-- The cursor of a page with one delta, read in the last second before it expires. -/
theorem cursors_read_sample :
    ∃ cursor last page, cursorSchema (ofParts
        ["eyJleHBpcmVzQXQiOjg3N", "DAwLCJncmFudElkIjoiMT", "ExMTExMTEtMTExMS00MTE",
          "xLTgxMTEtMTExMTExMTEx", "MTExIiwicHJvamVjdElkI", "joiMjIyMjIyMjItMjIyMi",
          "00MjIyLTgyMjItMjIyMjI", "yMjIyMjIyIiwicnVuSWQi", "OiIzMzMzMzMzMy0zMzMzL",
          "TQzMzMtODMzMy0zMzMzMz", "MzMzMzMzMiLCJzZXF1ZW5", "jZSI6NywidmVyc2lvbiI6",
          "MSwiY2hlY2tzdW0iOiIxM", "DkxNDc1MDFiMmUyYzQ2Y2", "EzN2M4N2NiZjYyNzg0ZDY",
          "3NmFiZjRkMTA4ZmMyNmVj", "ODJkM2QzYzA2NWU0MmEwI", "n0"]) =
        some cursor ∧
      getRunDeltas samplePlatform sampleTable
        { sampleRequest with cursor := some cursor, limit := none } (.ok sampleGrant) 87399 =
          .ok page ∧
      Answers sampleTable { sampleRequest with limit := none } last page := by
  have hfirst : (getRunDeltas samplePlatform sampleTable sampleRequest (.ok sampleGrant)
      1000).toOption.bind RunDeltaPage.cursor = some (ofParts
        ["eyJleHBpcmVzQXQiOjg3N", "DAwLCJncmFudElkIjoiMT", "ExMTExMTEtMTExMS00MTE",
          "xLTgxMTEtMTExMTExMTEx", "MTExIiwicHJvamVjdElkI", "joiMjIyMjIyMjItMjIyMi",
          "00MjIyLTgyMjItMjIyMjI", "yMjIyMjIyIiwicnVuSWQi", "OiIzMzMzMzMzMy0zMzMzL",
          "TQzMzMtODMzMy0zMzMzMz", "MzMzMzMzMiLCJzZXF1ZW5", "jZSI6NywidmVyc2lvbiI6",
          "MSwiY2hlY2tzdW0iOiIxM", "DkxNDc1MDFiMmUyYzQ2Y2", "EzN2M4N2NiZjYyNzg0ZDY",
          "3NmFiZjRkMTA4ZmMyNmVj", "ODJkM2QzYzA2NWU0MmEwI", "n0"]) := by
    decide +kernel
  obtain ⟨page, hpage, hcursor⟩ := Option.bind_eq_some_iff.mp hfirst
  have hok : getRunDeltas samplePlatform sampleTable sampleRequest (.ok sampleGrant) 1000 =
      .ok page := by
    cases hresult : getRunDeltas samplePlatform sampleTable sampleRequest (.ok sampleGrant)
        1000 with
    | error failure =>
        rw [hresult] at hpage
        cases hpage
    | ok page' =>
        rw [hresult] at hpage
        rw [Option.some.inj hpage]
  obtain ⟨cursor, last, hschema, -, hread⟩ := (cursors_read samplePlatform sampleTable
    sampleRequest sampleGrant { seconds := 1000, bounded := by decide }).2 page _ hok hcursor
  obtain ⟨page', hpage', hanswers⟩ := hread sampleTable none 87399 (by decide)
  exact ⟨cursor, _, page', hschema, hpage', hanswers⟩

end Mdevolved.Elastic.Cursors
