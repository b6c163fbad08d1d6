import Mdevolved.Lib.Keyset
import Mdevolved.Lib.Table

/-!
# Run Deltas

The append-only feed of a Run: what each mutation of the elastic plane hands
to `prepareRunDeltas`, the rows its batch inserts, and the pages `getRunDeltas`
reads back.

A delta's sequence is taken from the clock row by its own statement, before
the delta's body is stored and before the batch that inserts its row. The two
are separate functions here for the same reason: `prepareRunDeltas` moves the
clock and returns records, `deltaRowsStatement` turns records into rows, and
nothing ties the order of the one to the order of the other.

A page is kept as the records it carries together with the decoded payload of
its cursor. The token is that payload signed with its own checksum, so what a
reader sends back decodes to what it was given.

## Main definitions

* `RunDelta`: One entry of the feed, as a page carries it.
* `RunDeltaRow`: One row of `project_run_deltas`.
* `DeltaMutation`: The mutations that add deltas, with what they add.
* `prepareRunDeltas`: Taking sequences from the clock.
* `deltaRowsStatement`: The rows a batch inserts.

## Theorems

* `prepareRunDeltas_sequence`: The sequences a call takes from the clock.
* `getRunDeltas_page`: A page is a keyset page of the Run's records.
-/

namespace Mdevolved.Elastic

/-- The `record_type` column of `project_run_deltas`. -/
inductive DeltaRecordType
  | actor | eventBundle | recovery | budget | observation | orca
  deriving DecidableEq

inductive RetentionTier
  | hot | warm | cold | quarantine
  deriving DecidableEq

structure RetentionMetadata where
  retainUntil : Nat
  retentionTier : RetentionTier
  deriving DecidableEq

/-- Flat string metadata an actor was registered with. The column holds its
    JSON text. -/
abbrev EvidenceMetadata := List (String × String)

/-- One entry of a Run's feed. -/
structure RunDelta where
  sequence : Nat
  projectId : String
  runId : String
  recordType : DeltaRecordType
  recordId : String
  contentSha256 : Option String
  evidenceMetadata : Option EvidenceMetadata
  occurredAt : Nat
  metadata : RetentionMetadata
  deriving DecidableEq

/-- One row of `project_run_deltas`. -/
structure RunDeltaRow where
  deltaSequence : Nat
  deltaId : String
  projectId : String
  runId : String
  recordType : DeltaRecordType
  recordId : String
  contentSha256 : Option String
  evidenceMetadata : Option EvidenceMetadata
  occurredAt : Nat
  retentionTier : RetentionTier
  retainUntil : Nat
  deriving DecidableEq

def hotRetentionSeconds : Nat := 7 * 24 * 60 * 60

def warmRetentionSeconds : Nat := 30 * 24 * 60 * 60

def cursorLifetimeSeconds : Nat := 24 * 60 * 60

def maxR3DeltaPage : Nat := 100

/-- The retention of a record written at `now`; only `hot` and `warm` records
    are written live, and everything that is not hot is kept for the longer
    time. -/
def metadata (now : Nat) (tier : RetentionTier) : RetentionMetadata :=
  { retainUntil := now + (if tier = .hot then hotRetentionSeconds else warmRetentionSeconds)
    retentionTier := tier }

/-- What a mutation hands to `prepareRunDeltas` for one record. -/
structure DeltaInput where
  contentSha256 : Option String
  evidenceMetadata : Option EvidenceMetadata
  occurredAt : Nat
  recordId : String
  recordType : DeltaRecordType

/-- An actor with its stored record's hash and the metadata of its request. -/
structure PreparedActor where
  actorId : String
  contentSha256 : String
  metadata : Option EvidenceMetadata

/-- An event bundle with the budget entry made for it. -/
structure PreparedBundle where
  bundleId : String
  contentSha256 : String
  entryId : String
  entryContentSha256 : String

def actorDelta (now : Nat) (actor : PreparedActor) : DeltaInput :=
  { contentSha256 := some actor.contentSha256
    evidenceMetadata := actor.metadata
    occurredAt := now
    recordId := actor.actorId
    recordType := .actor }

/-- A delta that carries no evidence metadata. -/
def plainDelta (now : Nat) (recordType : DeltaRecordType) (recordId contentSha256 : String) :
    DeltaInput :=
  { contentSha256 := some contentSha256
    evidenceMetadata := none
    occurredAt := now
    recordId := recordId
    recordType := recordType }

/-- The mutations that add deltas to a Run, with the records they have stored
    by the time they ask for sequences. -/
inductive DeltaMutation
  | registerRunActorsBatch (actors : List PreparedActor)
  | submitRunBundlesBatch (bundles : List PreparedBundle)
  | recoverRunActor (replacement : PreparedActor) (recoveryId contentSha256 : String)
  | submitRunBudgetEntry (entryId contentSha256 : String)
  | submitRunObservation (observationId contentSha256 : String)
  | projectRunOrcaMetadata (projectionId contentSha256 : String)

/-- The deltas each mutation asks for, in the order it lists them. The last
    three all go through `persistSimpleElasticRecord`. -/
def DeltaMutation.deltas (now : Nat) : DeltaMutation → List DeltaInput
  | registerRunActorsBatch actors => actors.map (actorDelta now)
  | submitRunBundlesBatch bundles => bundles.flatMap (fun bundle =>
      [plainDelta now .eventBundle bundle.bundleId bundle.contentSha256,
        plainDelta now .budget bundle.entryId bundle.entryContentSha256])
  | recoverRunActor replacement recoveryId contentSha256 =>
      [actorDelta now replacement, plainDelta now .recovery recoveryId contentSha256]
  | submitRunBudgetEntry entryId contentSha256 => [plainDelta now .budget entryId contentSha256]
  | submitRunObservation observationId contentSha256 =>
      [plainDelta now .observation observationId contentSha256]
  | projectRunOrcaMetadata projectionId contentSha256 =>
      [plainDelta now .orca projectionId contentSha256]

/-- A stored delta record and the identifier it was stored under. -/
structure PreparedDelta where
  record : RunDelta
  elasticRecordId : String

/-- Advance the clock by the number of deltas and number them from where it
    stood. Returns the records, each under a fresh identifier, and the clock. -/
def prepareRunDeltas (nextSequence : Nat) (projectId runId : String) (uuid : Nat → String)
    (deltas : List DeltaInput) : List PreparedDelta × Nat :=
  (deltas.mapIdx (fun index delta =>
      { record :=
          { sequence := nextSequence + index
            projectId := projectId
            runId := runId
            recordType := delta.recordType
            recordId := delta.recordId
            contentSha256 := delta.contentSha256
            evidenceMetadata := delta.evidenceMetadata
            occurredAt := delta.occurredAt
            metadata := metadata delta.occurredAt .hot }
        elasticRecordId := uuid index }),
    nextSequence + deltas.length)

/-- The rows a batch inserts for its prepared deltas. -/
def deltaRowsStatement (preparedDeltas : List PreparedDelta) : List RunDeltaRow :=
  preparedDeltas.map (fun prepared =>
    { deltaSequence := prepared.record.sequence
      deltaId := prepared.elasticRecordId
      projectId := prepared.record.projectId
      runId := prepared.record.runId
      recordType := prepared.record.recordType
      recordId := prepared.record.recordId
      contentSha256 := prepared.record.contentSha256
      evidenceMetadata := prepared.record.evidenceMetadata
      occurredAt := prepared.record.occurredAt
      retentionTier := prepared.record.metadata.retentionTier
      retainUntil := prepared.record.metadata.retainUntil })

/-- The constraints of `project_run_deltas`: its primary key, the unique
    `delta_id`, the unique `(run_id, record_type, record_id)`, and the checks
    on the hash and the retention. -/
def admitsRunDelta (rows : List RunDeltaRow) (row : RunDeltaRow) : Bool :=
  rows.all (fun other =>
      other.deltaSequence ≠ row.deltaSequence && other.deltaId ≠ row.deltaId &&
        !(other.runId = row.runId && other.recordType = row.recordType &&
          other.recordId = row.recordId)) &&
    row.contentSha256.all (fun hash => hash.length = 64) &&
    row.occurredAt ≤ row.retainUntil

/-- A row as a page carries it. The identifiers are those of the request, which
    are the row's own. -/
def RunDeltaRow.toRunDelta (row : RunDeltaRow) : RunDelta :=
  { sequence := row.deltaSequence
    projectId := row.projectId
    runId := row.runId
    recordType := row.recordType
    recordId := row.recordId
    contentSha256 := row.contentSha256
    evidenceMetadata := row.evidenceMetadata
    occurredAt := row.occurredAt
    metadata := { retainUntil := row.retainUntil, retentionTier := row.retentionTier } }

/-- What a cursor token decodes to. -/
structure CursorPayload where
  expiresAt : Nat
  grantId : String
  projectId : String
  runId : String
  sequence : Nat

/-- The ways a read ends without a page. The last two stand for whatever the
    lead authorization and the plane and actor checks raise. -/
inductive LeadOperationProblem
  | submissionInvalid | cursorInvalid | accessRefused | runInvalid

structure GetRunDeltasRequest where
  projectId : String
  runId : String
  cursor : Option CursorPayload
  limit : Option Nat

structure RunDeltaPage where
  projectId : String
  runId : String
  cursor : Option CursorPayload
  hasMore : Bool
  deltas : List RunDelta

/-- Where a reader that holds this cursor has got to. -/
def sequenceOf (cursor : Option CursorPayload) : Nat :=
  (cursor.map CursorPayload.sequence).getD 0

/-- The sequence a request resumes from: that of its cursor, once the cursor is
    found to be this grant's for this Run and not expired. -/
def resumeSequence (request : GetRunDeltasRequest) (grantId : String) (now : Nat) :
    Except LeadOperationProblem Nat :=
  match request.cursor with
  | none => .ok 0
  | some cursor =>
      if cursor.projectId ≠ request.projectId ∨ cursor.runId ≠ request.runId ∨
          cursor.grantId ≠ grantId ∨ cursor.expiresAt ≤ now then
        .error .cursorInvalid
      else .ok cursor.sequence

/-- The rows of one Run. -/
def ofRun (projectId runId : String) (rows : List RunDeltaRow) : List RunDeltaRow :=
  rows.filter (fun row => row.projectId = projectId ∧ row.runId = runId)

/-- The records a request's page is taken from. -/
def feed (projectId runId : String) (rows : List RunDeltaRow) : List RunDelta :=
  (ofRun projectId runId rows).map RunDeltaRow.toRunDelta

/-- One page of a Run's feed. `access` is what the authorization and the plane
    and actor checks came to: the reader's grant, or a refusal. One row more
    than the limit is read, to tell whether there is more. -/
def getRunDeltas (rows : List RunDeltaRow) (request : GetRunDeltasRequest)
    (access : Except LeadOperationProblem String) (now : Nat) :
    Except LeadOperationProblem RunDeltaPage := do
  if request.limit.any (fun limit => limit = 0 ∨ maxR3DeltaPage < limit) then
    throw .submissionInvalid
  let grantId ← access
  let sequence ← resumeSequence request grantId now
  let limit := request.limit.getD maxR3DeltaPage
  let results := Keyset.page RunDeltaRow.deltaSequence sequence (limit + 1)
    (ofRun request.projectId request.runId rows)
  let visible := results.take limit
  let last := (visible.getLast?.map RunDeltaRow.deltaSequence).getD sequence
  return {
    projectId := request.projectId
    runId := request.runId
    cursor :=
      if visible = [] then none
      else some {
        expiresAt := now + cursorLifetimeSeconds
        grantId := grantId
        projectId := request.projectId
        runId := request.runId
        sequence := last }
    hasMore := limit < results.length
    deltas := visible.map RunDeltaRow.toRunDelta }

/-- A call numbers its deltas one after the other from where the clock stood,
    all below where it leaves the clock. -/
theorem prepareRunDeltas_sequence (nextSequence : Nat) (projectId runId : String)
    (uuid : Nat → String) (deltas : List DeltaInput) (prepared : PreparedDelta)
    (h : prepared ∈ (prepareRunDeltas nextSequence projectId runId uuid deltas).1) :
    nextSequence ≤ prepared.record.sequence ∧
      prepared.record.sequence < (prepareRunDeltas nextSequence projectId runId uuid deltas).2 := by
  simp only [prepareRunDeltas, List.mem_mapIdx] at h ⊢
  rcases h with ⟨index, hindex, rfl⟩
  exact ⟨Nat.le_add_right _ _, Nat.add_lt_add_left hindex _⟩

theorem admitsRunDelta_sequence (rows : List RunDeltaRow) (row : RunDeltaRow)
    (h : admitsRunDelta rows row = true) :
    ∀ other ∈ rows, other.deltaSequence ≠ row.deltaSequence := by
  intro other hother
  simp only [admitsRunDelta, Bool.and_eq_true, List.all_eq_true, decide_eq_true_eq] at h
  exact (h.1.1 other hother).1.1

theorem resumeSequence_ok (request : GetRunDeltasRequest) (grantId : String) (now sequence : Nat)
    (h : resumeSequence request grantId now = .ok sequence) :
    sequence = sequenceOf request.cursor := by
  unfold resumeSequence at h
  split at h
  · next hnone =>
      rw [Except.ok.injEq] at h
      rw [← h, sequenceOf, hnone]
      rfl
  · next cursor hsome =>
      split at h
      · cases h
      · rw [Except.ok.injEq] at h
        rw [← h, sequenceOf, hsome]
        rfl

/-- A page is a keyset page of the Run's records, and a reader that keeps its
    cursor where the page brought none resumes where the page ended. -/
theorem getRunDeltas_page (rows : List RunDeltaRow) (request : GetRunDeltasRequest)
    (access : Except LeadOperationProblem String) (now : Nat) (page : RunDeltaPage)
    (h : getRunDeltas rows request access now = .ok page) :
    page.deltas = Keyset.page RunDelta.sequence (sequenceOf request.cursor)
        (request.limit.getD maxR3DeltaPage) (feed request.projectId request.runId rows) ∧
      sequenceOf (page.cursor.or request.cursor) =
        Keyset.resume RunDelta.sequence (sequenceOf request.cursor) page.deltas := by
  unfold getRunDeltas at h
  split at h
  · cases h
  · cases haccess : access with
    | error e => rw [haccess] at h; cases h
    | ok grantId =>
        cases hresume : resumeSequence request grantId now with
        | error e => rw [haccess] at h; simp only [bind, Except.bind, hresume] at h; cases h
        | ok sequence =>
            have hseq := resumeSequence_ok request grantId now sequence hresume
            rw [haccess] at h
            simp only [bind, Except.bind, hresume, pure, Except.pure, Except.ok.injEq,
              Keyset.take_page _ _ _ _ _ (Nat.le_succ _)] at h
            subst h
            refine ⟨?_, ?_⟩
            · simp only [feed, Keyset.page_map, hseq]
              rfl
            · -- An empty page brings no cursor, and the reader stays where it was.
              simp only [Keyset.resume, List.getLast?_map, Option.map_map, hseq]
              split
              · next hnil => rw [hnil]; rfl
              · rfl

end Mdevolved.Elastic
