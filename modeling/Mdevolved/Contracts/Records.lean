import Mdevolved.Collaboration.Records
import Mdevolved.Lib.Issues

/-!
# Schemas of Records

What the contracts say of the records that a ledger is made of, each record by itself. What
a record has that no check compares with anything is left out: its texts, its hashes, and its
references to what is not a record.

A schema lists its issues. Positions are those inside the record.

## Main definitions

* `DurableRecord`, `OwnerEvent`, `ProvenanceEdge`: What is in a ledger.
* `DurableRecord.id`, `DurableRecord.projectId`: What other records refer to.
* `collaborationDurableRecordSchema`, `ownerEventSchema`, `provenanceEdgeSchema`: The
  schemas.

## Theorems

* `version_first_iff`: A version without a predecessor is the first one.
* `review_findings`: What a finding refers to is in its review.
-/

namespace Mdevolved.Contracts

open Issues
open Collaboration (RecordType MediaType ByteRange)

def maxKnowledgeSpaceVaults : Nat := 20

def maxPacketCitations : Nat := 64

def maxPacketIncludedRecords : Nat := 64

def maxPacketEvidenceBytes : Nat := 4 * 1024 * 1024

def maxSubmissionBytes : Nat := 1024 * 1024

def maxAttemptArtifacts : Nat := 16

def maxSafeInteger : Nat := 2 ^ 53 - 1

/-! ## Records -/

structure KnowledgeSpace where
  knowledgeSpaceId : String
  deriving DecidableEq

/-- A version names vaults, with prefixes of paths that are compared with nothing outside it. -/
structure KnowledgeSpaceVersion where
  knowledgeSpaceId : String
  knowledgeSpaceVersionId : String
  memberVaultIds : List String
  previousVersionId : Option String
  version : Nat
  deriving DecidableEq

structure Project where
  projectId : String
  deriving DecidableEq

structure PacketPolicy where
  maxCitationCount : Nat
  maxEvidenceBytes : Nat
  maxSharedRecordCount : Nat
  deriving DecidableEq

structure ProjectVersion where
  knowledgeSpaceVersionId : String
  packetPolicy : PacketPolicy
  previousVersionId : Option String
  projectId : String
  projectVersionId : String
  version : Nat
  deriving DecidableEq

structure WorkItem where
  projectId : String
  workItemId : String
  deriving DecidableEq

structure WorkItemVersion where
  previousVersionId : Option String
  projectId : String
  version : Nat
  workItemId : String
  workItemVersionId : String
  deriving DecidableEq

structure ParticipantRef where
  participantRefId : String
  deriving DecidableEq

structure RecordRef where
  recordId : String
  recordType : RecordType
  deriving DecidableEq

structure PacketEvidenceObject where
  byteLength : Nat
  evidenceObjectId : String
  deriving DecidableEq

structure PacketSourceCitation where
  citationId : String
  evidenceObjectId : String
  excerptByteRange : ByteRange
  sourceByteLength : Nat
  deriving DecidableEq

inductive IncludedAs
  | acceptedDecision | sharedHandoff | sharedReview
  deriving DecidableEq

inductive VisibilityAtAssembly
  | shared | accepted
  deriving DecidableEq

structure PacketIncludedRecord where
  record : RecordRef
  includedAs : IncludedAs
  visibilityAtAssembly : VisibilityAtAssembly
  deriving DecidableEq

structure OutputContract where
  acceptedMediaTypes : List MediaType
  acceptedRecordTypes : List RecordType
  maxSubmissionBytes : Nat
  deriving DecidableEq

structure WorkPacket where
  createdAt : Nat
  evidenceObjects : List PacketEvidenceObject
  expiresAt : Nat
  includedRecords : List PacketIncludedRecord
  knowledgeSpaceVersionId : String
  outputContract : OutputContract
  packetId : String
  projectId : String
  projectVersionId : String
  requestedRoleLabel : String
  sourceCitations : List PacketSourceCitation
  workItemId : String
  workItemVersionId : String
  deriving DecidableEq

structure Attempt where
  attemptId : String
  claimedCompletedAt : Option Nat
  claimedStartedAt : Option Nat
  participantRefId : String
  projectId : String
  requestedRoleLabel : String
  supersedesRecordId : Option String
  workItemId : String
  workPacketId : String
  deriving DecidableEq

structure Artifact where
  artifactId : String
  attemptId : String
  projectId : String
  supersedesRecordId : Option String
  workItemId : String
  workPacketId : String
  deriving DecidableEq

structure Handoff where
  artifactIds : List String
  attemptId : String
  evidenceCitationIds : List String
  handoffId : String
  projectId : String
  supersedesRecordId : Option String
  workItemId : String
  workPacketId : String
  deriving DecidableEq

structure ReviewFinding where
  artifactIds : List String
  evidenceCitationIds : List String
  findingId : String
  deriving DecidableEq

structure Review where
  artifactIds : List String
  attemptId : String
  findings : List ReviewFinding
  projectId : String
  reviewId : String
  supersedesRecordId : Option String
  workItemId : String
  workPacketId : String
  deriving DecidableEq

structure Decision where
  decisionId : String
  inputRecords : List RecordRef
  projectId : String
  supersedesDecisionId : Option String
  workItemId : String
  deriving DecidableEq

inductive DurableRecord
  | knowledgeSpace (s : KnowledgeSpace)
  | knowledgeSpaceVersion (v : KnowledgeSpaceVersion)
  | project (p : Project)
  | projectVersion (v : ProjectVersion)
  | workItem (i : WorkItem)
  | workItemVersion (v : WorkItemVersion)
  | participantRef (p : ParticipantRef)
  | workPacket (p : WorkPacket)
  | attempt (a : Attempt)
  | artifact (a : Artifact)
  | handoff (h : Handoff)
  | review (r : Review)
  | decision (d : Decision)
  deriving DecidableEq

namespace DurableRecord

def recordType : DurableRecord → RecordType
  | knowledgeSpace _ => .knowledgeSpace
  | knowledgeSpaceVersion _ => .knowledgeSpaceVersion
  | project _ => .project
  | projectVersion _ => .projectVersion
  | workItem _ => .workItem
  | workItemVersion _ => .workItemVersion
  | participantRef _ => .participantRef
  | workPacket _ => .workPacket
  | attempt _ => .attempt
  | artifact _ => .artifact
  | handoff _ => .handoff
  | review _ => .review
  | decision _ => .decision

/-- `collaborationRecordId` -/
def id : DurableRecord → String
  | knowledgeSpace s => s.knowledgeSpaceId
  | knowledgeSpaceVersion v => v.knowledgeSpaceVersionId
  | project p => p.projectId
  | projectVersion v => v.projectVersionId
  | workItem i => i.workItemId
  | workItemVersion v => v.workItemVersionId
  | participantRef p => p.participantRefId
  | workPacket p => p.packetId
  | attempt a => a.attemptId
  | artifact a => a.artifactId
  | handoff h => h.handoffId
  | review r => r.reviewId
  | decision d => d.decisionId

/-- The project of a record. Spaces, their versions and participants have none. -/
def projectId : DurableRecord → Option String
  | knowledgeSpace _ | knowledgeSpaceVersion _ | participantRef _ => none
  | project p => some p.projectId
  | projectVersion v => some v.projectId
  | workItem i => some i.projectId
  | workItemVersion v => some v.projectId
  | workPacket p => some p.projectId
  | attempt a => some a.projectId
  | artifact a => some a.projectId
  | handoff h => some h.projectId
  | review r => some r.projectId
  | decision d => some d.projectId

def knowledgeSpaceVersion? : DurableRecord → Option KnowledgeSpaceVersion
  | knowledgeSpaceVersion v => some v
  | _ => none

def projectVersion? : DurableRecord → Option ProjectVersion
  | projectVersion v => some v
  | _ => none

def workItemVersion? : DurableRecord → Option WorkItemVersion
  | workItemVersion v => some v
  | _ => none

def workPacket? : DurableRecord → Option WorkPacket
  | workPacket p => some p
  | _ => none

def attempt? : DurableRecord → Option Attempt
  | attempt a => some a
  | _ => none

def artifact? : DurableRecord → Option Artifact
  | artifact a => some a
  | _ => none

end DurableRecord

/-! ## Events and edges -/

inductive OwnerRecordEventType
  | shared | accepted | rejected | quarantined

inductive OwnerWorkItemEventType
  | closed | reopened

inductive OwnerProjectEventType
  | archived | reactivated

/-- What an owner did, by the type of the event. -/
inductive OwnerAction
  | record (eventType : OwnerRecordEventType) (target : RecordRef)
  | superseded (target replacement : RecordRef)
  | workItem (eventType : OwnerWorkItemEventType) (workItemId : String)
  | project (eventType : OwnerProjectEventType)
  | versionActivated (projectVersionId : String)

structure OwnerEvent where
  eventId : String
  projectId : String
  action : OwnerAction

inductive ProvClass
  | entity | activity | agent
  deriving DecidableEq

structure ProvenanceNode where
  id : String
  provClass : ProvClass
  recordType : RecordType

inductive ProvenanceRelation
  | used | wasGeneratedBy | wasDerivedFrom | wasRevisionOf | wasInformedBy | wasAttributedTo
  | wasAssociatedWith

structure ProvenanceEdge where
  edgeId : String
  object : ProvenanceNode
  projectId : String
  relation : ProvenanceRelation
  subject : ProvenanceNode

/-! ## The schema of each record -/

def knowledgeSpaceVersionSchema (v : KnowledgeSpaceVersion) : List Issue :=
  issueIf (¬ v.memberVaultIds.Nodup) "A Knowledge Space version may name each vault only once."
    [.key "members"] ++
  issueIf (v.version = 1 ∧ v.previousVersionId ≠ none)
    "The first Knowledge Space version has no predecessor." [.key "previousVersionId"] ++
  issueIf (1 < v.version ∧ v.previousVersionId = none)
    "Later Knowledge Space versions must identify their predecessor."
    [.key "previousVersionId"] ++
  issueIf (v.previousVersionId = some v.knowledgeSpaceVersionId)
    "A Knowledge Space version cannot be its own predecessor." [.key "previousVersionId"]

/-- The predecessor of a version of a Project or a Work Item. -/
def versionSchema (what : String) (versionId : String) (version : Nat)
    (previousVersionId : Option String) : List Issue :=
  issueIf ((version = 1 ∧ previousVersionId ≠ none) ∨ (1 < version ∧ previousVersionId = none))
    ("Only the first " ++ what ++ " version may omit its predecessor.")
    [.key "previousVersionId"] ++
  issueIf (previousVersionId = some versionId)
    ("A " ++ what ++ " version cannot be its own predecessor.") [.key "previousVersionId"]

def projectVersionSchema (v : ProjectVersion) : List Issue :=
  versionSchema "Project" v.projectVersionId v.version v.previousVersionId

def workItemVersionSchema (v : WorkItemVersion) : List Issue :=
  versionSchema "Work Item" v.workItemVersionId v.version v.previousVersionId

def packetSourceCitationSchema (c : PacketSourceCitation) : List Issue :=
  issueIf (c.excerptByteRange.endExclusive ≤ c.excerptByteRange.start ∨
      c.sourceByteLength < c.excerptByteRange.endExclusive)
    "The cited byte range must be non-empty and inside the source." [.key "excerptByteRange"]

def packetIncludedRecordSchema (r : PacketIncludedRecord) : List Issue :=
  let selected : RecordType × VisibilityAtAssembly := match r.includedAs with
    | .acceptedDecision => (.decision, .accepted)
    | .sharedHandoff => (.handoff, .shared)
    | .sharedReview => (.review, .shared)
  issueIf (r.record.recordType ≠ selected.1 ∨ r.visibilityAtAssembly ≠ selected.2)
    "Included record type and visibility must match its packet classification."
    [.key "includedAs"]

/-- The bytes that are kept as evidence. -/
def WorkPacket.evidenceBytes (p : WorkPacket) : Nat :=
  (p.evidenceObjects.map PacketEvidenceObject.byteLength).sum

/-- The evidence of a citation. Of two objects with one identity the last one counts. -/
def WorkPacket.evidenceOf (p : WorkPacket) (c : PacketSourceCitation) :
    Option PacketEvidenceObject :=
  p.evidenceObjects.reverse.find? (fun o => o.evidenceObjectId = c.evidenceObjectId)

def workPacketSchema (p : WorkPacket) : List Issue :=
  each p.sourceCitations (fun index c =>
    under [.key "sourceCitations", .index index] (packetSourceCitationSchema c)) ++
  each p.includedRecords (fun index r =>
    under [.key "includedRecords", .index index] (packetIncludedRecordSchema r)) ++
  issueIf (p.expiresAt ≤ p.createdAt) "A Work Packet must expire after it is created."
    [.key "expiresAt"] ++
  issueIf (¬ (p.evidenceObjects.map PacketEvidenceObject.evidenceObjectId).Nodup)
    "Packet evidence object identities must be unique." [.key "evidenceObjects"] ++
  issueIf (¬ (p.sourceCitations.map PacketSourceCitation.citationId).Nodup)
    "Packet citation identities must be unique." [.key "sourceCitations"] ++
  each p.sourceCitations (fun index c =>
    issueIf ((p.evidenceOf c).map PacketEvidenceObject.byteLength ≠
        some (c.excerptByteRange.endExclusive - c.excerptByteRange.start))
      "A citation must resolve to an exact retained evidence object."
      [.key "sourceCitations", .index index, .key "evidenceObjectId"]) ++
  issueIf ((p.sourceCitations.map PacketSourceCitation.evidenceObjectId).dedup.length ≠
      (p.evidenceObjects.map PacketEvidenceObject.evidenceObjectId).dedup.length)
    "Every packet evidence object must be cited." [.key "evidenceObjects"] ++
  issueIf (maxPacketEvidenceBytes < p.evidenceBytes)
    "The retained packet evidence exceeds the contract budget." [.key "evidenceObjects"] ++
  issueIf (¬ (p.includedRecords.map (fun r => r.record.recordId)).Nodup)
    "Included collaboration records must be unique." [.key "includedRecords"] ++
  issueIf (¬ p.outputContract.acceptedMediaTypes.Nodup)
    "Work Packet output contract values must be unique."
    [.key "outputContract", .key "acceptedMediaTypes"] ++
  issueIf (¬ p.outputContract.acceptedRecordTypes.Nodup)
    "Work Packet output contract values must be unique."
    [.key "outputContract", .key "acceptedRecordTypes"]

def attemptSchema (a : Attempt) : List Issue :=
  match a.claimedStartedAt, a.claimedCompletedAt with
  | some started, some completed =>
      issueIf (completed < started) "Claimed completion cannot precede claimed start."
        [.key "claimedCompletedAt"]
  | _, _ => []

def handoffSchema (h : Handoff) : List Issue :=
  issueIf (¬ h.artifactIds.Nodup) "Handoff references must be unique." [.key "artifactIds"] ++
  issueIf (¬ h.evidenceCitationIds.Nodup) "Handoff references must be unique."
    [.key "evidenceCitationIds"]

def reviewSchema (r : Review) : List Issue :=
  issueIf (¬ r.artifactIds.Nodup) "Review Artifact references must be unique."
    [.key "artifactIds"] ++
  issueIf (¬ (r.findings.map ReviewFinding.findingId).Nodup)
    "Review finding identities must be unique." [.key "findings"] ++
  each r.findings (fun findingIndex finding =>
    issueIf (¬ finding.artifactIds.Nodup) "Finding Artifact references must be unique."
      [.key "findings", .index findingIndex, .key "artifactIds"] ++
    issueIf (¬ finding.evidenceCitationIds.Nodup) "Finding citation references must be unique."
      [.key "findings", .index findingIndex, .key "evidenceCitationIds"] ++
    each finding.artifactIds (fun artifactIndex artifactId =>
      issueIf (artifactId ∉ r.artifactIds)
        "A finding can only reference an Artifact declared by its Review."
        [.key "findings", .index findingIndex, .key "artifactIds", .index artifactIndex]))

def decisionSchema (d : Decision) : List Issue :=
  issueIf (¬ (d.inputRecords.map RecordRef.recordId).Nodup)
    "A Decision may identify each input record only once." [.key "inputRecords"] ++
  issueIf (d.supersedesDecisionId = some d.decisionId) "A Decision cannot supersede itself."
    [.key "supersedesDecisionId"]

/-- What the types do not say of the shape of a record: versions start from one, and lists are
    not too long. -/
def wellShaped : DurableRecord → Bool
  | .knowledgeSpace _ | .project _ | .workItem _ | .participantRef _ | .attempt _
  | .artifact _ => true
  | .knowledgeSpaceVersion v => 1 ≤ v.version && v.version ≤ maxSafeInteger &&
      1 ≤ v.memberVaultIds.length && v.memberVaultIds.length ≤ maxKnowledgeSpaceVaults
  | .projectVersion v => 1 ≤ v.version && v.version ≤ maxSafeInteger &&
      1 ≤ v.packetPolicy.maxCitationCount &&
      v.packetPolicy.maxCitationCount ≤ maxPacketCitations &&
      1 ≤ v.packetPolicy.maxEvidenceBytes &&
      v.packetPolicy.maxEvidenceBytes ≤ maxPacketEvidenceBytes &&
      v.packetPolicy.maxSharedRecordCount ≤ maxPacketIncludedRecords
  | .workItemVersion v => 1 ≤ v.version && v.version ≤ maxSafeInteger
  | .workPacket p => p.evidenceObjects.length ≤ maxPacketCitations &&
      p.sourceCitations.length ≤ maxPacketCitations &&
      p.includedRecords.length ≤ maxPacketIncludedRecords &&
      p.evidenceObjects.all (fun o => o.byteLength ≤ maxSubmissionBytes) &&
      p.sourceCitations.all (fun c => c.sourceByteLength ≤ maxSubmissionBytes) &&
      1 ≤ p.outputContract.acceptedMediaTypes.length &&
      p.outputContract.acceptedMediaTypes.length ≤ 2 &&
      1 ≤ p.outputContract.acceptedRecordTypes.length &&
      p.outputContract.acceptedRecordTypes.length ≤ 4 &&
      p.outputContract.acceptedRecordTypes.all (fun type =>
        type ∈ [RecordType.attempt, .artifact, .handoff, .review]) &&
      1 ≤ p.outputContract.maxSubmissionBytes &&
      p.outputContract.maxSubmissionBytes ≤ maxSubmissionBytes
  | .handoff h => h.artifactIds.length ≤ maxAttemptArtifacts &&
      h.evidenceCitationIds.length ≤ maxPacketCitations
  | .review r => 1 ≤ r.artifactIds.length && r.artifactIds.length ≤ maxAttemptArtifacts &&
      r.findings.length ≤ 64 && r.findings.all (fun finding =>
        finding.artifactIds.length ≤ maxAttemptArtifacts &&
        finding.evidenceCitationIds.length ≤ maxPacketCitations)
  | .decision d => d.inputRecords.length ≤ 64

def collaborationDurableRecordSchema (r : DurableRecord) : List Issue :=
  issueIf (wellShaped r = false) "Invalid input" [] ++
  match r with
  | .knowledgeSpace _ | .project _ | .workItem _ | .participantRef _ | .artifact _ => []
  | .knowledgeSpaceVersion v => knowledgeSpaceVersionSchema v
  | .projectVersion v => projectVersionSchema v
  | .workItemVersion v => workItemVersionSchema v
  | .workPacket p => workPacketSchema p
  | .attempt a => attemptSchema a
  | .handoff h => handoffSchema h
  | .review r => reviewSchema r
  | .decision d => decisionSchema d

def ownerEventSchema (e : OwnerEvent) : List Issue :=
  match e.action with
  | .superseded target replacement =>
      issueIf (target.recordType ≠ replacement.recordType)
        "A supersession replacement must have the same record type."
        [.key "replacement", .key "recordType"] ++
      issueIf (target.recordId = replacement.recordId) "A record cannot supersede itself."
        [.key "replacement", .key "recordId"]
  | _ => []

def provenanceClassByRecordType : RecordType → ProvClass
  | .participantRef => .agent
  | .attempt | .review => .activity
  | _ => .entity

def provenanceNodeSchema (node : ProvenanceNode) : List Issue :=
  issueIf (node.provClass ≠ provenanceClassByRecordType node.recordType)
    "The PROV class must match the collaboration record's semantic class." [.key "provClass"]

/-- The classes of what a relation goes from and to. -/
def expectedClasses : ProvenanceRelation → ProvClass × ProvClass
  | .used => (.activity, .entity)
  | .wasGeneratedBy => (.entity, .activity)
  | .wasDerivedFrom => (.entity, .entity)
  | .wasRevisionOf => (.entity, .entity)
  | .wasInformedBy => (.activity, .activity)
  | .wasAttributedTo => (.entity, .agent)
  | .wasAssociatedWith => (.activity, .agent)

def provenanceEdgeSchema (e : ProvenanceEdge) : List Issue :=
  under [.key "subject"] (provenanceNodeSchema e.subject) ++
  under [.key "object"] (provenanceNodeSchema e.object) ++
  issueIf (e.subject.provClass ≠ (expectedClasses e.relation).1 ∨
      e.object.provClass ≠ (expectedClasses e.relation).2)
    "The provenance edge direction does not match W3C PROV semantics." [.key "relation"]

/-! ## What the schemas say -/

/-- A version without a predecessor is the first one. -/
theorem version_first_iff (what versionId : String) (version : Nat)
    (previousVersionId : Option String) (hpos : 1 ≤ version)
    (h : versionSchema what versionId version previousVersionId = []) :
    previousVersionId = none ↔ version = 1 := by
  unfold versionSchema at h
  rw [List.append_eq_nil_iff, issueIf_nil, not_or] at h
  obtain ⟨⟨hfirst, hlater⟩, -⟩ := h
  constructor
  · intro hnone
    by_contra hne
    exact hlater ⟨by omega, hnone⟩
  · intro hone
    by_contra hnone
    exact hfirst ⟨hone, hnone⟩

theorem knowledgeSpaceVersion_first_iff (v : KnowledgeSpaceVersion) (hpos : 1 ≤ v.version)
    (h : knowledgeSpaceVersionSchema v = []) : v.previousVersionId = none ↔ v.version = 1 := by
  unfold knowledgeSpaceVersionSchema at h
  simp only [List.append_eq_nil_iff, issueIf_nil] at h
  obtain ⟨⟨⟨-, hfirst⟩, hlater⟩, -⟩ := h
  constructor
  · intro hnone
    by_contra hne
    exact hlater ⟨by omega, hnone⟩
  · intro hone
    by_contra hnone
    exact hfirst ⟨hone, hnone⟩

/-- What a finding refers to is in its review. -/
theorem review_findings (r : Review) (h : reviewSchema r = []) (finding : ReviewFinding)
    (hfinding : finding ∈ r.findings) (artifactId : String)
    (hartifact : artifactId ∈ finding.artifactIds) : artifactId ∈ r.artifactIds := by
  unfold reviewSchema at h
  rw [List.append_eq_nil_iff] at h
  obtain ⟨i, hfound⟩ := each_mem _ _ h.2 finding hfinding
  rw [List.append_eq_nil_iff] at hfound
  obtain ⟨j, hin⟩ := each_mem _ _ hfound.2 artifactId hartifact
  rw [issueIf_nil, not_not] at hin
  exact hin

end Mdevolved.Contracts
