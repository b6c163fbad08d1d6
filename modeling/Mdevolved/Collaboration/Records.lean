import Mathlib

/-!
# Records of the Collaboration Ledger

What the ledger of a project is made of. A record never changes once it is there. A
brief that is edited gets another version, a work packet that runs out gets a
successor, and what an owner decides about a record is kept beside it.

Texts that no function looks at are left out.

## Main definitions

* `ProjectVersion`, `WorkItemVersion`: The brief of a project and of a work item.
* `WorkPacket`: What an agent is given to work from.
* `SubmittedRecord`: What an agent hands in.
* `CollaborationRecord`: Any record.
-/

namespace Mdevolved.Collaboration

inductive RecordType
  | knowledgeSpace | knowledgeSpaceVersion | project | projectVersion | workItem
  | workItemVersion | participantRef | workPacket | attempt | artifact | handoff | review
  | decision | ownerEvent | provenanceEdge
  deriving DecidableEq

inductive MediaType
  | markdown | json
  deriving DecidableEq

/-! ## Spaces and briefs -/

structure PathPrefix where
  path : String
  pathKey : String

structure KnowledgeSpaceMember where
  exclusions : List PathPrefix
  pathPrefixes : List PathPrefix
  vaultId : String

structure KnowledgeSpaceVersion where
  knowledgeSpaceVersionId : String
  knowledgeSpaceId : String
  members : List KnowledgeSpaceMember
  selectorSha256 : String
  createdAt : Int

structure ProjectVersion where
  projectVersionId : String
  projectId : String
  knowledgeSpaceVersionId : String
  objective : String
  previousVersionId : Option String
  version : Nat
  createdAt : Int

structure WorkItemBrief where
  constraints : List String
  definitionOfDone : List String
  objective : String
  requestedOutput : String

structure WorkItemVersion where
  workItemVersionId : String
  workItemId : String
  projectId : String
  brief : WorkItemBrief
  previousVersionId : Option String
  version : Nat
  createdAt : Int

/-! ## Packets -/

structure ByteRange where
  start : Nat
  endExclusive : Nat
  deriving DecidableEq

structure SourceCitation where
  citationId : String
  evidenceObjectId : String
  excerptByteRange : ByteRange
  sourceByteLength : Nat
  path : String
  vaultId : String
  generationId : String

/-- A record that a packet was assembled with. -/
structure IncludedRecord where
  recordId : String
  recordType : RecordType
  contentSha256 : String

structure OutputContract where
  acceptedMediaTypes : List MediaType
  acceptedRecordTypes : List RecordType
  maxSubmissionBytes : Nat

structure WorkPacket where
  packetId : String
  projectId : String
  workItemId : String
  projectVersionId : String
  workItemVersionId : String
  knowledgeSpaceVersionId : String
  brief : WorkItemBrief
  requestedRole : String
  sourceCitations : List SourceCitation
  evidenceObjects : List String
  includedRecords : List IncludedRecord
  outputContract : OutputContract
  createdAt : Int
  expiresAt : Int
  digest : String

/-! ## Submissions -/

structure ParticipantRef where
  participantRefId : String
  clientId : String
  displayName : String
  origin : String
  observedAt : Int

inductive ArtifactContent
  | storedObject (byteLength : Nat) (contentSha256 : String) (mediaType : MediaType)
      (portableObjectId : String)
  | externalReference (uri : String)

/-- What a record of an agent is about. -/
structure SubmissionScope where
  projectId : String
  workItemId : String
  workPacketId : String

structure Attempt where
  attemptId : String
  scope : SubmissionScope
  participantRefId : String
  grantId : Option String
  supersedesRecordId : Option String

structure Artifact where
  artifactId : String
  attemptId : String
  scope : SubmissionScope
  label : String
  content : ArtifactContent
  supersedesRecordId : Option String

structure Handoff where
  handoffId : String
  attemptId : String
  scope : SubmissionScope
  artifactIds : List String
  evidenceCitationIds : List String
  summary : String
  supersedesRecordId : Option String

structure ReviewFinding where
  findingId : String
  evidenceCitationIds : List String
  summary : String

structure Review where
  reviewId : String
  attemptId : String
  scope : SubmissionScope
  artifactIds : List String
  findings : List ReviewFinding
  supersedesRecordId : Option String

/-- What an agent hands in. -/
inductive SubmittedRecord
  | attempt (a : Attempt)
  | artifact (a : Artifact)
  | handoff (h : Handoff)
  | review (r : Review)

namespace SubmittedRecord

def id : SubmittedRecord → String
  | attempt a => a.attemptId
  | artifact a => a.artifactId
  | handoff h => h.handoffId
  | review r => r.reviewId

def recordType : SubmittedRecord → RecordType
  | attempt _ => .attempt
  | artifact _ => .artifact
  | handoff _ => .handoff
  | review _ => .review

def scope : SubmittedRecord → SubmissionScope
  | attempt a => a.scope
  | artifact a => a.scope
  | handoff h => h.scope
  | review r => r.scope

end SubmittedRecord

/-! ## Records -/

inductive OwnerEventType
  | shared | accepted | rejected | quarantined | versionActivated

structure OwnerEvent where
  eventId : String
  projectId : String
  eventType : OwnerEventType
  targetRecordId : Option String
  projectVersionId : Option String
  createdAt : Int

inductive ProvenanceRelation
  | used | wasGeneratedBy | wasAssociatedWith | wasDerivedFrom

structure ProvenanceEdge where
  edgeId : String
  projectId : String
  relation : ProvenanceRelation
  subjectId : String
  objectId : String

/-- Any record of the ledger. -/
inductive CollaborationRecord
  | knowledgeSpace (knowledgeSpaceId initialLabel : String)
  | knowledgeSpaceVersion (v : KnowledgeSpaceVersion)
  | project (projectId initialLabel : String)
  | projectVersion (v : ProjectVersion)
  | workItem (workItemId projectId : String)
  | workItemVersion (v : WorkItemVersion)
  | participantRef (p : ParticipantRef)
  | workPacket (p : WorkPacket)
  | submitted (r : SubmittedRecord)
  | decision (decisionId projectId workItemId : String)
  | ownerEvent (e : OwnerEvent)
  | provenanceEdge (e : ProvenanceEdge)

namespace CollaborationRecord

/-- The identifier of a record is a field of its own kind. -/
def id : CollaborationRecord → String
  | knowledgeSpace knowledgeSpaceId _ => knowledgeSpaceId
  | knowledgeSpaceVersion v => v.knowledgeSpaceVersionId
  | project projectId _ => projectId
  | projectVersion v => v.projectVersionId
  | workItem workItemId _ => workItemId
  | workItemVersion v => v.workItemVersionId
  | participantRef p => p.participantRefId
  | workPacket p => p.packetId
  | submitted r => r.id
  | decision decisionId _ _ => decisionId
  | ownerEvent e => e.eventId
  | provenanceEdge e => e.edgeId

def recordType : CollaborationRecord → RecordType
  | knowledgeSpace _ _ => .knowledgeSpace
  | knowledgeSpaceVersion _ => .knowledgeSpaceVersion
  | project _ _ => .project
  | projectVersion _ => .projectVersion
  | workItem _ _ => .workItem
  | workItemVersion _ => .workItemVersion
  | participantRef _ => .participantRef
  | workPacket _ => .workPacket
  | submitted r => r.recordType
  | decision _ _ _ => .decision
  | ownerEvent _ => .ownerEvent
  | provenanceEdge _ => .provenanceEdge

def recordProjectId : CollaborationRecord → Option String
  | knowledgeSpace _ _ | knowledgeSpaceVersion _ | participantRef _ => none
  | project projectId _ => some projectId
  | projectVersion v => some v.projectId
  | workItem _ projectId => some projectId
  | workItemVersion v => some v.projectId
  | workPacket p => some p.projectId
  | submitted r => some r.scope.projectId
  | decision _ projectId _ => some projectId
  | ownerEvent e => some e.projectId
  | provenanceEdge e => some e.projectId

def recordWorkItemId : CollaborationRecord → Option String
  | workItem workItemId _ => some workItemId
  | workItemVersion v => some v.workItemId
  | workPacket p => some p.workItemId
  | submitted r => some r.scope.workItemId
  | decision _ _ workItemId => some workItemId
  | _ => none

end CollaborationRecord

end Mdevolved.Collaboration
