import Mdevolved.Contracts.Records
import Mdevolved.Lib.Lineage

/-!
# The Schema of a Ledger

A ledger is checked as a whole: identities, ordinals of versions, and what records refer to.
A record is looked up by its identity and must be of the kind that is asked for.

What an accepted ledger satisfies is read off the lists of issues, one kind of record after
the other. One reference is not looked up: that of a record to the one it supersedes.

## Main definitions

* `CollaborationLedger`: A ledger.
* `requireRecord`: Looking up a record of a kind.
* `collaborationLedgerSchema`: The schema.
* `DurableRecord.references`, `DurableRecord.supersedes`: What a record refers to.
* `Resolves`: A reference is to a record of its kind, in the same project.

## Theorems

* `requireRecord_some`: What is found.
* `ledger_unique`, `ledger_lineages`: Identities and versions of an accepted ledger.
* `record_resolves`, `event_resolves`, `edge_resolves`: What is looked up resolves.
* `coherent_iff`: When an accepted ledger is coherent.
-/

namespace Mdevolved.Contracts

open Issues
open Collaboration (RecordType)

def maxIntelligenceRecords : Nat := 5000

structure CollaborationLedger where
  ownerEvents : List OwnerEvent
  provenanceEdges : List ProvenanceEdge
  records : List DurableRecord

def recordTypeText : RecordType → String
  | .knowledgeSpace => "knowledge-space"
  | .knowledgeSpaceVersion => "knowledge-space-version"
  | .project => "project"
  | .projectVersion => "project-version"
  | .workItem => "work-item"
  | .workItemVersion => "work-item-version"
  | .participantRef => "participant-ref"
  | .workPacket => "work-packet"
  | .attempt => "attempt"
  | .artifact => "artifact"
  | .handoff => "handoff"
  | .review => "review"
  | .decision => "decision"
  | .ownerEvent => "owner-event"
  | .provenanceEdge => "provenance-edge"

/-! ## Looking up records -/

/-- The record of an identity. Of two the last one counts. -/
def recordOf (records : List DurableRecord) (id : String) : Option DurableRecord :=
  records.reverse.find? (fun r => r.id = id)

/-- The record of an identity, if it is of the kind. -/
def requireRecord (records : List DurableRecord) (id : String) (type : RecordType) :
    Option DurableRecord :=
  (recordOf records id).filter (fun r => r.recordType = type)

/-- The issue of a record that is not found. -/
def missing (records : List DurableRecord) (id : String) (type : RecordType)
    (path : List PathStep) : List Issue :=
  issueIf (requireRecord records id type = none)
    ("Missing " ++ recordTypeText type ++ " dependency.") path

/-- The project of a record that may not be there. -/
def projectOf (found : Option DurableRecord) : Option String :=
  found.bind DurableRecord.projectId

/-- A record of another project was found. -/
def foreign (found : Option DurableRecord) (projectId : String) : Prop :=
  projectOf found ≠ none ∧ projectOf found ≠ some projectId

instance (found : Option DurableRecord) (projectId : String) : Decidable (foreign found projectId) :=
  inferInstanceAs (Decidable (_ ∧ _))

/-! ## Identities and ordinals -/

def uniqueIssues (l : CollaborationLedger) : List Issue :=
  repeats "Portable record, event, and edge identities must be globally unique."
    (l.records.zipIdx.map (fun r => (r.1.id, [.key "records", .index r.2])) ++
      l.ownerEvents.zipIdx.map (fun e =>
        (e.1.eventId, [.key "ownerEvents", .index e.2, .key "eventId"])) ++
      l.provenanceEdges.zipIdx.map (fun e =>
        (e.1.edgeId, [.key "provenanceEdges", .index e.2, .key "edgeId"])))
    []

/-- What a version is a version of, and its number. -/
def ordinal : DurableRecord → Option (RecordType × String × Nat)
  | .knowledgeSpaceVersion v => some (.knowledgeSpaceVersion, v.knowledgeSpaceId, v.version)
  | .projectVersion v => some (.projectVersion, v.projectId, v.version)
  | .workItemVersion v => some (.workItemVersion, v.workItemId, v.version)
  | _ => none

def ordinalIssues (l : CollaborationLedger) : List Issue :=
  repeats "A stable record may have only one immutable version at each ordinal."
    (l.records.zipIdx.filterMap (fun r => (ordinal r.1).map (fun o =>
      (o, [.key "records", .index r.2, .key "version"])))) []

/-! ## References of records -/

/-- A version that names a predecessor, which has to be the version right before it. -/
def predecessorIssues (records : List DurableRecord) (previousVersionId : Option String)
    (type : RecordType) (follows : DurableRecord → Bool) (message : String)
    (path : List PathStep) : List Issue :=
  match previousVersionId with
  | none => []
  | some previousId =>
      missing records previousId type path ++
      issueIf ((requireRecord records previousId type).any (fun previous => !follows previous))
        message path

def knowledgeSpaceVersionIssues (records : List DurableRecord) (index : Nat)
    (v : KnowledgeSpaceVersion) : List Issue :=
  missing records v.knowledgeSpaceId .knowledgeSpace
    [.key "records", .index index, .key "knowledgeSpaceId"] ++
  predecessorIssues records v.previousVersionId .knowledgeSpaceVersion
    (fun previous => previous.knowledgeSpaceVersion?.any (fun p =>
      p.knowledgeSpaceId = v.knowledgeSpaceId && p.version + 1 = v.version))
    "A Knowledge Space predecessor must be the immediately prior version of the same Knowledge Space."
    [.key "records", .index index, .key "previousVersionId"]

def projectVersionIssues (records : List DurableRecord) (index : Nat) (v : ProjectVersion) :
    List Issue :=
  missing records v.projectId .project [.key "records", .index index, .key "projectId"] ++
  missing records v.knowledgeSpaceVersionId .knowledgeSpaceVersion
    [.key "records", .index index, .key "knowledgeSpaceVersionId"] ++
  predecessorIssues records v.previousVersionId .projectVersion
    (fun previous => previous.projectVersion?.any (fun p =>
      p.projectId = v.projectId && p.version + 1 = v.version))
    "A Project predecessor must be the immediately prior version of the same Project."
    [.key "records", .index index, .key "previousVersionId"]

def workItemIssues (records : List DurableRecord) (index : Nat) (i : WorkItem) : List Issue :=
  missing records i.projectId .project [.key "records", .index index, .key "projectId"]

/-- A Work Item that has to be there and of the project. -/
def ownWorkItem (records : List DurableRecord) (workItemId projectId message : String)
    (path : List PathStep) : List Issue :=
  missing records workItemId .workItem path ++
  issueIf (projectOf (requireRecord records workItemId .workItem) ≠ some projectId) message path

def workItemVersionIssues (records : List DurableRecord) (index : Nat) (v : WorkItemVersion) :
    List Issue :=
  missing records v.projectId .project [.key "records", .index index, .key "projectId"] ++
  ownWorkItem records v.workItemId v.projectId
    "A Work Item version must belong to the same Project as its Work Item."
    [.key "records", .index index, .key "workItemId"] ++
  predecessorIssues records v.previousVersionId .workItemVersion
    (fun previous => previous.workItemVersion?.any (fun p =>
      p.projectId = v.projectId && p.workItemId = v.workItemId && p.version + 1 = v.version))
    "A Work Item predecessor must be the immediately prior version of the same Work Item."
    [.key "records", .index index, .key "previousVersionId"]

/-- References that are looked up, and to no other project. -/
def refsIssues (records : List DurableRecord) (refs : List RecordRef) (projectId message : String)
    (path : List PathStep) : List Issue :=
  each refs (fun refIndex ref =>
    missing records ref.recordId ref.recordType (path ++ [.index refIndex]) ++
    issueIf (foreign (requireRecord records ref.recordId ref.recordType) projectId) message
      (path ++ [.index refIndex]))

def workPacketIssues (records : List DurableRecord) (index : Nat) (p : WorkPacket) :
    List Issue :=
  let projectVersion := requireRecord records p.projectVersionId .projectVersion
  let workItem := requireRecord records p.workItemId .workItem
  let workItemVersion := requireRecord records p.workItemVersionId .workItemVersion
  missing records p.projectId .project [.key "records", .index index, .key "projectId"] ++
  missing records p.projectVersionId .projectVersion
    [.key "records", .index index, .key "projectVersionId"] ++
  missing records p.workItemId .workItem [.key "records", .index index, .key "workItemId"] ++
  missing records p.workItemVersionId .workItemVersion
    [.key "records", .index index, .key "workItemVersionId"] ++
  issueIf (projectOf projectVersion ≠ some p.projectId)
    "Every Work Packet dependency must belong to its Project."
    [.key "records", .index index, .key "projectVersionId"] ++
  issueIf (projectOf workItem ≠ some p.projectId)
    "Every Work Packet dependency must belong to its Project."
    [.key "records", .index index, .key "workItemId"] ++
  issueIf (projectOf workItemVersion ≠ some p.projectId)
    "Every Work Packet dependency must belong to its Project."
    [.key "records", .index index, .key "workItemVersionId"] ++
  missing records p.knowledgeSpaceVersionId .knowledgeSpaceVersion
    [.key "records", .index index, .key "knowledgeSpaceVersionId"] ++
  (match projectVersion.bind DurableRecord.projectVersion? with
    | none => []
    | some version =>
        issueIf (version.knowledgeSpaceVersionId ≠ p.knowledgeSpaceVersionId)
          "A Work Packet must use its Project version's exact Knowledge Space version."
          [.key "records", .index index, .key "knowledgeSpaceVersionId"] ++
        issueIf (version.packetPolicy.maxCitationCount < p.sourceCitations.length ∨
            version.packetPolicy.maxEvidenceBytes < p.evidenceBytes ∨
            version.packetPolicy.maxSharedRecordCount < p.includedRecords.length)
          "A Work Packet must remain inside its Project version's packet policy."
          [.key "records", .index index]) ++
  (match workItemVersion.bind DurableRecord.workItemVersion? with
    | none => []
    | some version =>
        issueIf (version.workItemId ≠ p.workItemId)
          "A Work Packet must reference a version of its exact Work Item."
          [.key "records", .index index, .key "workItemVersionId"]) ++
  refsIssues records (p.includedRecords.map PacketIncludedRecord.record) p.projectId
    "A Work Packet cannot include a record from another Project."
    [.key "records", .index index, .key "includedRecords"]

def attemptIssues (records : List DurableRecord) (index : Nat) (a : Attempt) : List Issue :=
  let packet := requireRecord records a.workPacketId .workPacket
  missing records a.projectId .project [.key "records", .index index, .key "projectId"] ++
  missing records a.workItemId .workItem [.key "records", .index index, .key "workItemId"] ++
  missing records a.workPacketId .workPacket
    [.key "records", .index index, .key "workPacketId"] ++
  issueIf (projectOf (requireRecord records a.workItemId .workItem) ≠ some a.projectId)
    "An Attempt and its Work Item must belong to the same Project."
    [.key "records", .index index, .key "workItemId"] ++
  (if projectOf packet ≠ some a.projectId then
    [⟨"An Attempt and its Work Packet must belong to the same Project.",
      [.key "records", .index index, .key "workPacketId"]⟩]
  else
    match packet.bind DurableRecord.workPacket? with
    | none => []
    | some p =>
        issueIf (p.workItemId ≠ a.workItemId ∨ p.requestedRoleLabel ≠ a.requestedRoleLabel)
          "An Attempt must use its Work Packet's exact Work Item and requested role."
          [.key "records", .index index, .key "workPacketId"]) ++
  missing records a.participantRefId .participantRef
    [.key "records", .index index, .key "participantRefId"]

/-- What the records have in common that come out of an attempt. -/
structure Output where
  artifactIds : List String
  attemptId : String
  evidenceCitationIds : List String
  isHandoff : Bool
  projectId : String
  workItemId : String
  workPacketId : String

def Artifact.output (a : Artifact) : Output :=
  { artifactIds := [], attemptId := a.attemptId, evidenceCitationIds := [], isHandoff := false
    projectId := a.projectId, workItemId := a.workItemId, workPacketId := a.workPacketId }

def Handoff.output (h : Handoff) : Output :=
  { artifactIds := h.artifactIds, attemptId := h.attemptId
    evidenceCitationIds := h.evidenceCitationIds, isHandoff := true
    projectId := h.projectId, workItemId := h.workItemId, workPacketId := h.workPacketId }

def Review.output (r : Review) : Output :=
  { artifactIds := r.artifactIds, attemptId := r.attemptId
    evidenceCitationIds := r.findings.flatMap ReviewFinding.evidenceCitationIds
    isHandoff := false
    projectId := r.projectId, workItemId := r.workItemId, workPacketId := r.workPacketId }

/-- An artifact that an output refers to. -/
def artifactIssues (records : List DurableRecord) (o : Output) (artifactId : String)
    (path : List PathStep) : List Issue :=
  let artifact := requireRecord records artifactId .artifact
  missing records artifactId .artifact path ++
  issueIf (projectOf artifact ≠ some o.projectId)
    "Referenced Artifacts must belong to the same Project." path ++
  (match artifact.bind DurableRecord.artifact? with
    | none => []
    | some a =>
        issueIf (a.workItemId ≠ o.workItemId)
          "Referenced Artifacts must belong to the same Work Item." path ++
        issueIf (o.isHandoff = true ∧ a.attemptId ≠ o.attemptId)
          "A Handoff can only deliver Artifacts produced by its Attempt." path)

def outputIssues (records : List DurableRecord) (index : Nat) (o : Output) : List Issue :=
  let attempt := requireRecord records o.attemptId .attempt
  let packet := requireRecord records o.workPacketId .workPacket
  missing records o.attemptId .attempt [.key "records", .index index, .key "attemptId"] ++
  missing records o.workPacketId .workPacket
    [.key "records", .index index, .key "workPacketId"] ++
  issueIf (projectOf attempt ≠ some o.projectId)
    "An output record and its Attempt must belong to the same Project."
    [.key "records", .index index, .key "attemptId"] ++
  issueIf (projectOf packet ≠ some o.projectId)
    "An output record and its Work Packet must belong to the same Project."
    [.key "records", .index index, .key "workPacketId"] ++
  (match attempt.bind DurableRecord.attempt? with
    | none => []
    | some a =>
        issueIf (a.workItemId ≠ o.workItemId ∨ a.workPacketId ≠ o.workPacketId)
          "An output record must use its parent Attempt's exact Work Item and Work Packet."
          [.key "records", .index index, .key "attemptId"]) ++
  (match packet.bind DurableRecord.workPacket? with
    | none => []
    | some p =>
        issueIf (p.workItemId ≠ o.workItemId)
          "An output record must use its Work Packet's exact Work Item."
          [.key "records", .index index, .key "workItemId"]) ++
  each o.artifactIds (fun artifactIndex artifactId =>
    artifactIssues records o artifactId
      [.key "records", .index index, .key "artifactIds", .index artifactIndex]) ++
  each o.evidenceCitationIds (fun citationIndex citationId =>
    issueIf (∀ p ∈ packet.bind DurableRecord.workPacket?,
        citationId ∉ p.sourceCitations.map PacketSourceCitation.citationId)
      "Output evidence citations must resolve inside the exact Work Packet."
      [.key "records", .index index, .key "evidenceCitationIds", .index citationIndex])

def decisionIssues (records : List DurableRecord) (index : Nat) (d : Decision) : List Issue :=
  missing records d.projectId .project [.key "records", .index index, .key "projectId"] ++
  ownWorkItem records d.workItemId d.projectId
    "A Decision's Work Item must belong to its Project."
    [.key "records", .index index, .key "workItemId"] ++
  refsIssues records d.inputRecords d.projectId
    "A Decision cannot consume a record from another Project."
    [.key "records", .index index, .key "inputRecords"]

/-- The references of a record. -/
def recordIssues (records : List DurableRecord) (index : Nat) : DurableRecord → List Issue
  | .knowledgeSpace _ | .project _ | .participantRef _ => []
  | .knowledgeSpaceVersion v => knowledgeSpaceVersionIssues records index v
  | .projectVersion v => projectVersionIssues records index v
  | .workItem i => workItemIssues records index i
  | .workItemVersion v => workItemVersionIssues records index v
  | .workPacket p => workPacketIssues records index p
  | .attempt a => attemptIssues records index a
  | .artifact a => outputIssues records index a.output
  | .handoff h => outputIssues records index h.output
  | .review r => outputIssues records index r.output
  | .decision d => decisionIssues records index d

/-! ## References of events and edges -/

/-- A record that an event names, which may have no project. -/
def targetIssues (records : List DurableRecord) (ref : RecordRef) (projectId message : String)
    (path : List PathStep) : List Issue :=
  missing records ref.recordId ref.recordType path ++
  issueIf (foreign (requireRecord records ref.recordId ref.recordType) projectId) message path

def eventIssues (records : List DurableRecord) (index : Nat) (e : OwnerEvent) : List Issue :=
  missing records e.projectId .project [.key "ownerEvents", .index index, .key "projectId"] ++
  match e.action with
  | .record _ target =>
      targetIssues records target e.projectId
        "An OwnerEvent cannot target another Project's record."
        [.key "ownerEvents", .index index, .key "target"]
  | .superseded target replacement =>
      targetIssues records target e.projectId
        "An OwnerEvent cannot target another Project's record."
        [.key "ownerEvents", .index index, .key "target"] ++
      targetIssues records replacement e.projectId
        "A supersession replacement must belong to the OwnerEvent's Project."
        [.key "ownerEvents", .index index, .key "replacement"]
  | .workItem _ workItemId =>
      ownWorkItem records workItemId e.projectId
        "A Work Item lifecycle event must belong to the OwnerEvent's Project."
        [.key "ownerEvents", .index index, .key "workItemId"]
  | .project _ => []
  | .versionActivated projectVersionId =>
      missing records projectVersionId .projectVersion
        [.key "ownerEvents", .index index, .key "projectVersionId"] ++
      issueIf (projectOf (requireRecord records projectVersionId .projectVersion) ≠
          some e.projectId)
        "An activated Project version must belong to the OwnerEvent's Project."
        [.key "ownerEvents", .index index, .key "projectVersionId"]

/-- A node of an edge has to be a record, and of no other project. -/
def nodeIssues (records : List DurableRecord) (node : ProvenanceNode) (projectId : String)
    (path : List PathStep) : List Issue :=
  match requireRecord records node.id node.recordType with
  | none =>
      [⟨"Every provenance node must resolve to the declared collaboration record.", path⟩]
  | some found =>
      issueIf (foreign (some found) projectId)
        "A provenance edge cannot cross Project boundaries." path

def edgeIssues (records : List DurableRecord) (index : Nat) (e : ProvenanceEdge) : List Issue :=
  missing records e.projectId .project
    [.key "provenanceEdges", .index index, .key "projectId"] ++
  nodeIssues records e.subject e.projectId
    [.key "provenanceEdges", .index index, .key "subject"] ++
  nodeIssues records e.object e.projectId
    [.key "provenanceEdges", .index index, .key "object"]

/-! ## The schema -/

/-- The checks of a ledger as a whole. -/
def ledgerIssues (l : CollaborationLedger) : List Issue :=
  uniqueIssues l ++ ordinalIssues l ++
  each l.records (recordIssues l.records) ++
  each l.ownerEvents (eventIssues l.records) ++
  each l.provenanceEdges (edgeIssues l.records)

/-- The issues of a ledger: those of its parts and, if these have none, those of the whole. -/
def collaborationLedgerSchema (l : CollaborationLedger) : List Issue :=
  let parts :=
    issueIf (maxIntelligenceRecords < l.ownerEvents.length) "Too big" [.key "ownerEvents"] ++
    each l.ownerEvents (fun index e =>
      under [.key "ownerEvents", .index index] (ownerEventSchema e)) ++
    issueIf (maxIntelligenceRecords < l.provenanceEdges.length) "Too big"
      [.key "provenanceEdges"] ++
    each l.provenanceEdges (fun index e =>
      under [.key "provenanceEdges", .index index] (provenanceEdgeSchema e)) ++
    issueIf (maxIntelligenceRecords < l.records.length) "Too big" [.key "records"] ++
    each l.records (fun index r =>
      under [.key "records", .index index] (collaborationDurableRecordSchema r))
  if parts ≠ [] then parts else ledgerIssues l

/-! ## What a ledger should satisfy -/

/-- The references that come out of an attempt. -/
def Output.references (o : Output) : List RecordRef :=
  [⟨o.projectId, .project⟩, ⟨o.attemptId, .attempt⟩, ⟨o.workItemId, .workItem⟩,
    ⟨o.workPacketId, .workPacket⟩] ++ o.artifactIds.map (⟨·, .artifact⟩)

namespace DurableRecord

def previousVersionId : DurableRecord → Option String
  | knowledgeSpaceVersion v => v.previousVersionId
  | projectVersion v => v.previousVersionId
  | workItemVersion v => v.previousVersionId
  | _ => none

def version (r : DurableRecord) : Nat :=
  ((ordinal r).map (fun o => o.2.2)).getD 0

/-- What a record refers to, apart from what it supersedes. -/
def references (r : DurableRecord) : List RecordRef :=
  (match r with
    | knowledgeSpace _ | project _ | participantRef _ => []
    | knowledgeSpaceVersion v => [⟨v.knowledgeSpaceId, .knowledgeSpace⟩]
    | projectVersion v =>
        [⟨v.projectId, .project⟩, ⟨v.knowledgeSpaceVersionId, .knowledgeSpaceVersion⟩]
    | workItem i => [⟨i.projectId, .project⟩]
    | workItemVersion v => [⟨v.projectId, .project⟩, ⟨v.workItemId, .workItem⟩]
    | workPacket p =>
        [⟨p.projectId, .project⟩, ⟨p.projectVersionId, .projectVersion⟩,
          ⟨p.workItemId, .workItem⟩, ⟨p.workItemVersionId, .workItemVersion⟩,
          ⟨p.knowledgeSpaceVersionId, .knowledgeSpaceVersion⟩] ++
          p.includedRecords.map PacketIncludedRecord.record
    | attempt a =>
        [⟨a.projectId, .project⟩, ⟨a.workItemId, .workItem⟩, ⟨a.workPacketId, .workPacket⟩,
          ⟨a.participantRefId, .participantRef⟩]
    | artifact a => a.output.references
    | handoff h => h.output.references
    | review r => r.output.references ++
        (r.findings.flatMap ReviewFinding.artifactIds).map (⟨·, .artifact⟩)
    | decision d => [⟨d.projectId, .project⟩, ⟨d.workItemId, .workItem⟩] ++ d.inputRecords) ++
  (r.previousVersionId.map (⟨·, r.recordType⟩)).toList

/-- The record that a record supersedes, which should be of its own kind. -/
def supersedes : DurableRecord → Option RecordRef
  | attempt a => a.supersedesRecordId.map (⟨·, .attempt⟩)
  | artifact a => a.supersedesRecordId.map (⟨·, .artifact⟩)
  | handoff h => h.supersedesRecordId.map (⟨·, .handoff⟩)
  | review r => r.supersedesRecordId.map (⟨·, .review⟩)
  | decision d => d.supersedesDecisionId.map (⟨·, .decision⟩)
  | _ => none

end DurableRecord

def OwnerEvent.references (e : OwnerEvent) : List RecordRef :=
  ⟨e.projectId, .project⟩ :: match e.action with
    | .record _ target => [target]
    | .superseded target replacement => [target, replacement]
    | .workItem _ workItemId => [⟨workItemId, .workItem⟩]
    | .project _ => []
    | .versionActivated projectVersionId => [⟨projectVersionId, .projectVersion⟩]

def ProvenanceEdge.references (e : ProvenanceEdge) : List RecordRef :=
  [⟨e.projectId, .project⟩, ⟨e.subject.id, e.subject.recordType⟩,
    ⟨e.object.id, e.object.recordType⟩]

/-- A reference is to a record of its kind, which has the project of what refers to it, or
    none. -/
def Resolves (records : List DurableRecord) (projectId : Option String) (ref : RecordRef) :
    Prop :=
  ∃ r ∈ records, r.id = ref.recordId ∧ r.recordType = ref.recordType ∧
    (r.projectId = none ∨ r.projectId = projectId)

instance (records : List DurableRecord) (projectId : Option String) (ref : RecordRef) :
    Decidable (Resolves records projectId ref) :=
  inferInstanceAs (Decidable (∃ r ∈ records, _))

/-- The versions of one thing. -/
def versionsOf (records : List DurableRecord) (type : RecordType) (stableId : String) :
    List DurableRecord :=
  records.filter (fun r => (ordinal r).any (fun o => o.1 = type && o.2.1 = stableId))

/-- Identities are unique, versions are numbered from one on and name those in front of them,
    and what is referred to is there. -/
structure Coherent (l : CollaborationLedger) : Prop where
  unique : (l.records.map DurableRecord.id ++ l.ownerEvents.map OwnerEvent.eventId ++
    l.provenanceEdges.map ProvenanceEdge.edgeId).Nodup
  versions : ∀ type stableId, ∃ chain, chain.Perm (versionsOf l.records type stableId) ∧
    Lineage.LinkedFrom DurableRecord.id DurableRecord.previousVersionId DurableRecord.version
      none 0 chain ∧
    chain.map DurableRecord.version = List.range' 1 chain.length
  records : ∀ r ∈ l.records, ∀ ref ∈ r.references, Resolves l.records r.projectId ref
  superseded : ∀ r ∈ l.records, ∀ ref ∈ r.supersedes, Resolves l.records r.projectId ref
  events : ∀ e ∈ l.ownerEvents, ∀ ref ∈ e.references, Resolves l.records (some e.projectId) ref
  edges : ∀ e ∈ l.provenanceEdges, ∀ ref ∈ e.references,
    Resolves l.records (some e.projectId) ref

/-! ## What is found -/

section Found

variable {records : List DurableRecord} {id : String} {type : RecordType} {r : DurableRecord}
  {path : List PathStep} {projectId : Option String}

theorem requireRecord_some (h : requireRecord records id type = some r) :
    r ∈ records ∧ r.id = id ∧ r.recordType = type := by
  unfold requireRecord recordOf at h
  obtain ⟨hfound, htype⟩ := Option.filter_eq_some_iff.mp h
  have hid := List.find?_some hfound
  rw [decide_eq_true_eq] at hid htype
  exact ⟨List.mem_reverse.mp (List.mem_of_find?_eq_some hfound), hid, htype⟩

theorem missing_nil (h : missing records id type path = []) :
    ∃ r, requireRecord records id type = some r := by
  unfold missing at h
  rw [issueIf_nil] at h
  exact Option.ne_none_iff_exists'.mp h

/-- A record that was found, in the project or in none. -/
theorem resolves_of_found (h : requireRecord records id type = some r)
    (hproject : r.projectId = none ∨ r.projectId = projectId) :
    Resolves records projectId ⟨id, type⟩ := by
  obtain ⟨hmem, hid, htype⟩ := requireRecord_some h
  exact ⟨r, hmem, hid, htype, hproject⟩

/-- A project has itself as its project. -/
theorem project_resolves (h : missing records id .project path = []) :
    Resolves records (some id) ⟨id, .project⟩ := by
  obtain ⟨r, hr⟩ := missing_nil h
  obtain ⟨-, hid, htype⟩ := requireRecord_some hr
  apply resolves_of_found hr
  cases r with
  | project p => exact Or.inr (congrArg some hid)
  | _ => cases htype

/-- Spaces, their versions and participants have no project. -/
theorem shared_resolves (hshared : type = .knowledgeSpace ∨ type = .knowledgeSpaceVersion ∨
    type = .participantRef) (h : missing records id type path = []) :
    Resolves records projectId ⟨id, type⟩ := by
  obtain ⟨r, hr⟩ := missing_nil h
  obtain ⟨-, -, htype⟩ := requireRecord_some hr
  apply resolves_of_found hr
  rcases hshared with rfl | rfl | rfl
  · cases r with
    | knowledgeSpace s => exact Or.inl rfl
    | _ => cases htype
  · cases r with
    | knowledgeSpaceVersion v => exact Or.inl rfl
    | _ => cases htype
  · cases r with
    | participantRef p => exact Or.inl rfl
    | _ => cases htype

/-- A record whose project was compared. -/
theorem own_resolves (hfound : missing records id type path = [])
    (h : ¬ projectOf (requireRecord records id type) ≠ projectId) :
    Resolves records projectId ⟨id, type⟩ := by
  obtain ⟨r, hr⟩ := missing_nil hfound
  rw [hr, not_not] at h
  exact resolves_of_found hr (Or.inr h)

theorem foreign_resolves (project : String) (hfound : missing records id type path = [])
    (h : ¬ foreign (requireRecord records id type) project) :
    Resolves records (some project) ⟨id, type⟩ := by
  obtain ⟨r, hr⟩ := missing_nil hfound
  rw [hr, foreign, not_and_or, not_not, not_not] at h
  exact resolves_of_found hr h

theorem refs_resolve (refs : List RecordRef) (project message : String) (path : List PathStep)
    (h : refsIssues records refs project message path = []) :
    ∀ ref ∈ refs, Resolves records (some project) ref := by
  intro ref href
  obtain ⟨i, hi⟩ := each_mem _ _ h ref href
  rw [List.append_eq_nil_iff, issueIf_nil] at hi
  exact foreign_resolves project hi.1 hi.2

theorem ownWorkItem_resolves (workItemId project message : String) (path : List PathStep)
    (h : ownWorkItem records workItemId project message path = []) :
    Resolves records (some project) ⟨workItemId, .workItem⟩ := by
  unfold ownWorkItem at h
  rw [List.append_eq_nil_iff, issueIf_nil] at h
  exact own_resolves h.1 h.2

theorem target_resolves (ref : RecordRef) (project message : String) (path : List PathStep)
    (h : targetIssues records ref project message path = []) :
    Resolves records (some project) ref := by
  unfold targetIssues at h
  rw [List.append_eq_nil_iff, issueIf_nil] at h
  exact foreign_resolves project h.1 h.2

theorem node_resolves (node : ProvenanceNode) (project : String) (path : List PathStep)
    (h : nodeIssues records node project path = []) :
    Resolves records (some project) ⟨node.id, node.recordType⟩ := by
  unfold nodeIssues at h
  split at h
  · cases h
  · next found hfound =>
    rw [issueIf_nil, foreign, not_and_or, not_not, not_not] at h
    exact resolves_of_found hfound h

/-- A predecessor that was found follows the check. -/
theorem predecessor_found (previousId message : String) (follows : DurableRecord → Bool)
    (path : List PathStep)
    (h : predecessorIssues records (some previousId) type follows message path = []) :
    ∃ previous ∈ records, previous.id = previousId ∧ previous.recordType = type ∧
      follows previous = true := by
  unfold predecessorIssues at h
  rw [List.append_eq_nil_iff, issueIf_nil] at h
  obtain ⟨previous, hprevious⟩ := missing_nil h.1
  obtain ⟨hmem, hid, htype⟩ := requireRecord_some hprevious
  have hfollows := h.2
  rw [hprevious, Option.any_some, Bool.not_eq_true, Bool.not_eq_false'] at hfollows
  exact ⟨previous, hmem, hid, htype, hfollows⟩

end Found

/-! ## Versions -/

/-- The version in front of a version. -/
def InFront (records : List DurableRecord) (r u : DurableRecord) (type : RecordType)
    (stableId : String) (n : Nat) : Prop :=
  u ∈ records ∧ ordinal u = some (type, stableId, n) ∧ r.previousVersionId = some u.id ∧
    u.recordType = r.recordType ∧ (u.projectId = none ∨ u.projectId = r.projectId)

section

variable (records : List DurableRecord) (i : Nat)

theorem knowledgeSpaceVersion_follows (v : KnowledgeSpaceVersion)
    (hschema : collaborationDurableRecordSchema (.knowledgeSpaceVersion v) = [])
    (h : knowledgeSpaceVersionIssues records i v = []) :
    (v.previousVersionId = none ∧ v.version = 1) ∨ ∃ u n,
      InFront records (.knowledgeSpaceVersion v) u .knowledgeSpaceVersion v.knowledgeSpaceId n ∧
        v.version = n + 1 := by
  unfold collaborationDurableRecordSchema at hschema
  rw [List.append_eq_nil_iff, issueIf_nil] at hschema
  have hpos : 1 ≤ v.version := by
    have hshape := hschema.1
    simp only [wellShaped, Bool.not_eq_false, Bool.and_eq_true, decide_eq_true_eq] at hshape
    exact hshape.1.1.1
  have hfirst := knowledgeSpaceVersion_first_iff v hpos hschema.2
  unfold knowledgeSpaceVersionIssues at h
  rw [List.append_eq_nil_iff] at h
  cases hprevious : v.previousVersionId with
  | none => exact Or.inl ⟨rfl, hfirst.mp hprevious⟩
  | some previousId =>
      rw [hprevious] at h
      obtain ⟨u, hu, hid, htype, hfollows⟩ := predecessor_found previousId _ _ _ h.2
      cases u with
      | knowledgeSpaceVersion w =>
          simp only [DurableRecord.knowledgeSpaceVersion?, Option.any_some, Bool.and_eq_true,
            decide_eq_true_eq] at hfollows
          refine Or.inr ⟨_, w.version, ⟨hu, ?_, ?_, rfl, Or.inl rfl⟩, hfollows.2.symm⟩
          · rw [ordinal, hfollows.1]
          · exact hprevious.trans (congrArg some hid.symm)
      | _ => cases htype

theorem projectVersion_follows (v : ProjectVersion)
    (hschema : collaborationDurableRecordSchema (.projectVersion v) = [])
    (h : projectVersionIssues records i v = []) :
    (v.previousVersionId = none ∧ v.version = 1) ∨ ∃ u n,
      InFront records (.projectVersion v) u .projectVersion v.projectId n ∧
        v.version = n + 1 := by
  unfold collaborationDurableRecordSchema at hschema
  rw [List.append_eq_nil_iff, issueIf_nil] at hschema
  have hpos : 1 ≤ v.version := by
    have hshape := hschema.1
    simp only [wellShaped, Bool.not_eq_false, Bool.and_eq_true, decide_eq_true_eq] at hshape
    exact hshape.1.1.1.1.1.1
  have hfirst := version_first_iff _ _ _ _ hpos hschema.2
  unfold projectVersionIssues at h
  rw [List.append_eq_nil_iff] at h
  cases hprevious : v.previousVersionId with
  | none => exact Or.inl ⟨rfl, hfirst.mp hprevious⟩
  | some previousId =>
      rw [hprevious] at h
      obtain ⟨u, hu, hid, htype, hfollows⟩ := predecessor_found previousId _ _ _ h.2
      cases u with
      | projectVersion w =>
          simp only [DurableRecord.projectVersion?, Option.any_some, Bool.and_eq_true,
            decide_eq_true_eq] at hfollows
          refine Or.inr ⟨_, w.version, ⟨hu, ?_, ?_, rfl, Or.inr ?_⟩, hfollows.2.symm⟩
          · rw [ordinal, hfollows.1]
          · exact hprevious.trans (congrArg some hid.symm)
          · exact congrArg some hfollows.1
      | _ => cases htype

theorem workItemVersion_follows (v : WorkItemVersion)
    (hschema : collaborationDurableRecordSchema (.workItemVersion v) = [])
    (h : workItemVersionIssues records i v = []) :
    (v.previousVersionId = none ∧ v.version = 1) ∨ ∃ u n,
      InFront records (.workItemVersion v) u .workItemVersion v.workItemId n ∧
        v.version = n + 1 := by
  unfold collaborationDurableRecordSchema at hschema
  rw [List.append_eq_nil_iff, issueIf_nil] at hschema
  have hpos : 1 ≤ v.version := by
    have hshape := hschema.1
    simp only [wellShaped, Bool.not_eq_false, Bool.and_eq_true, decide_eq_true_eq] at hshape
    exact hshape.1
  have hfirst := version_first_iff _ _ _ _ hpos hschema.2
  unfold workItemVersionIssues at h
  rw [List.append_eq_nil_iff] at h
  cases hprevious : v.previousVersionId with
  | none => exact Or.inl ⟨rfl, hfirst.mp hprevious⟩
  | some previousId =>
      rw [hprevious] at h
      obtain ⟨u, hu, hid, htype, hfollows⟩ := predecessor_found previousId _ _ _ h.2
      cases u with
      | workItemVersion w =>
          simp only [DurableRecord.workItemVersion?, Option.any_some, Bool.and_eq_true,
            decide_eq_true_eq] at hfollows
          obtain ⟨⟨hproject, hitem⟩, hnumber⟩ := hfollows
          refine Or.inr ⟨_, w.version, ⟨hu, ?_, ?_, rfl, Or.inr ?_⟩, hnumber.symm⟩
          · rw [ordinal, hitem]
          · exact hprevious.trans (congrArg some hid.symm)
          · exact congrArg some hproject
      | _ => cases htype

/-- A version is the first one or names the one in front of it. -/
theorem version_follows (r : DurableRecord)
    (type : RecordType) (stableId : String) (n : Nat)
    (hschema : collaborationDurableRecordSchema r = []) (h : recordIssues records i r = [])
    (hordinal : ordinal r = some (type, stableId, n)) :
    (r.previousVersionId = none ∧ n = 1) ∨
      ∃ u m, InFront records r u type stableId m ∧ n = m + 1 := by
  cases r with
  | knowledgeSpaceVersion v =>
      simp only [ordinal, Option.some.injEq, Prod.mk.injEq] at hordinal
      obtain ⟨rfl, rfl, rfl⟩ := hordinal
      exact knowledgeSpaceVersion_follows records i v hschema h
  | projectVersion v =>
      simp only [ordinal, Option.some.injEq, Prod.mk.injEq] at hordinal
      obtain ⟨rfl, rfl, rfl⟩ := hordinal
      exact projectVersion_follows records i v hschema h
  | workItemVersion v =>
      simp only [ordinal, Option.some.injEq, Prod.mk.injEq] at hordinal
      obtain ⟨rfl, rfl, rfl⟩ := hordinal
      exact workItemVersion_follows records i v hschema h
  | _ => cases hordinal

/-- The predecessor of a version resolves. -/
theorem predecessor_resolves (r : DurableRecord)
    (hschema : collaborationDurableRecordSchema r = []) (h : recordIssues records i r = [])
    (ref : RecordRef) (href : ref ∈ (r.previousVersionId.map (⟨·, r.recordType⟩)).toList) :
    Resolves records r.projectId ref := by
  rw [Option.mem_toList, Option.map_eq_some_iff] at href
  obtain ⟨previousId, hprevious, rfl⟩ := href
  cases hordinal : ordinal r with
  | none =>
      cases r <;> simp [ordinal, DurableRecord.previousVersionId] at hordinal hprevious
  | some o =>
      rcases version_follows records i r o.1 o.2.1 o.2.2 hschema h hordinal with
        ⟨hnone, -⟩ | ⟨u, m, ⟨hu, -, hnamed, htype, hproject⟩, -⟩
      · rw [hnone] at hprevious
        cases hprevious
      · rw [hnamed] at hprevious
        exact ⟨u, hu, Option.some.inj hprevious, htype, hproject⟩

end

/-! ## Accepted ledgers -/

/-- What no issue was found in. -/
structure Accepted (l : CollaborationLedger) : Prop where
  schemas : ∀ r ∈ l.records, collaborationDurableRecordSchema r = []
  unique : uniqueIssues l = []
  ordinals : ordinalIssues l = []
  records : ∀ r ∈ l.records, ∃ i, recordIssues l.records i r = []
  events : ∀ e ∈ l.ownerEvents, ∃ i, eventIssues l.records i e = []
  edges : ∀ e ∈ l.provenanceEdges, ∃ i, edgeIssues l.records i e = []

section

variable (l : CollaborationLedger)

theorem accepted_of_schema (h : collaborationLedgerSchema l = []) :
    Accepted l := by
  unfold collaborationLedgerSchema at h
  simp only [] at h
  split at h
  · next hparts => exact absurd h hparts
  · next hparts =>
    rw [not_not, List.append_eq_nil_iff] at hparts
    unfold ledgerIssues at h
    simp only [List.append_eq_nil_iff] at h
    obtain ⟨⟨⟨⟨hunique, hordinals⟩, hrecords⟩, hevents⟩, hedges⟩ := h
    exact {
      schemas := by
        intro r hr
        obtain ⟨i, hi⟩ := each_mem _ _ hparts.2 r hr
        rwa [under_nil] at hi
      unique := hunique
      ordinals := hordinals
      records := each_mem _ _ hrecords
      events := each_mem _ _ hevents
      edges := each_mem _ _ hedges }

/-- No identity is used twice, by whatever it is used. -/
theorem ledger_unique (h : Accepted l) :
    (l.records.map DurableRecord.id ++ l.ownerEvents.map OwnerEvent.eventId ++
      l.provenanceEdges.map ProvenanceEdge.edgeId).Nodup := by
  have hunique := h.unique
  unfold uniqueIssues at hunique
  rw [repeats_nil] at hunique
  have hmap : ∀ {α : Type} (items : List α) (key : α → String) (path : Nat → List PathStep),
      (items.zipIdx.map (fun x => (key x.1, path x.2))).map Prod.fst = items.map key := by
    intro α items key path
    rw [List.map_map]
    change items.zipIdx.map (key ∘ Prod.fst) = _
    rw [← List.map_map, List.zipIdx_map_fst]
  rw [← hmap l.records DurableRecord.id (fun n => [.key "records", .index n]),
    ← hmap l.ownerEvents OwnerEvent.eventId
      (fun n => [.key "ownerEvents", .index n, .key "eventId"]),
    ← hmap l.provenanceEdges ProvenanceEdge.edgeId
      (fun n => [.key "provenanceEdges", .index n, .key "edgeId"]),
    ← List.map_append, ← List.map_append]
  exact hunique.1

/-- Records of one ordinal are one record. -/
theorem ordinal_inj (h : Accepted l) (r t : DurableRecord)
    (hr : r ∈ l.records) (ht : t ∈ l.records) (hsome : (ordinal r).isSome)
    (hsame : ordinal r = ordinal t) : r = t := by
  have hordinals := h.ordinals
  unfold ordinalIssues at hordinals
  rw [repeats_nil] at hordinals
  have hkeys := hordinals.1
  have hmap : ∀ (items : List DurableRecord) (n : Nat),
      ((items.zipIdx n).filterMap (fun x => (ordinal x.1).map (fun o =>
        (o, [PathStep.key "records", .index x.2, .key "version"])))).map Prod.fst =
        items.filterMap ordinal := by
    intro items
    induction items with
    | nil => intro n; rfl
    | cons a rest ih =>
        intro n
        rw [List.zipIdx_cons, List.filterMap_cons, List.filterMap_cons]
        cases ha : ordinal a with
        | none => exact ih (n + 1)
        | some o =>
            rw [Option.map_some, List.map_cons, ih (n + 1)]
  rw [hmap, List.Nodup, List.pairwise_filterMap] at hkeys
  by_contra hne
  obtain ⟨o, ho⟩ := Option.isSome_iff_exists.mp hsome
  have hsymm : Std.Symm (fun a b : DurableRecord =>
      ∀ x, ordinal a = some x → ∀ y, ordinal b = some y → x ≠ y) :=
    ⟨fun a b hab x hx y hy hxy => hab y hy x hx hxy.symm⟩
  exact hkeys.forall hr ht hne o ho o (hsame ▸ ho) rfl

/-- Versions of one thing are numbered from one on, and each names the one in front of it. -/
theorem ledger_lineages (h : Accepted l) (type : RecordType)
    (stableId : String) :
    ∃ chain, chain.Perm (versionsOf l.records type stableId) ∧
      Lineage.LinkedFrom DurableRecord.id DurableRecord.previousVersionId DurableRecord.version
        none 0 chain ∧
      chain.map DurableRecord.version = List.range' 1 chain.length := by
  have hrow : ∀ r, r ∈ versionsOf l.records type stableId ↔
      r ∈ l.records ∧ ordinal r = some (type, stableId, r.version) := by
    intro r
    rw [versionsOf, List.mem_filter, DurableRecord.version]
    cases ordinal r with
    | none => simp
    | some o => simp [Prod.ext_iff]
  by_cases hempty : versionsOf l.records type stableId = []
  · exact ⟨[], by rw [hempty], trivial, rfl⟩
  · have hnodup : (l.records.map DurableRecord.id).Nodup :=
      (List.nodup_append.mp (List.nodup_append.mp (ledger_unique l h)).1).1
    have hids : ((versionsOf l.records type stableId).map DurableRecord.id).Nodup :=
      hnodup.sublist (List.filter_sublist.map _)
    have hsorted : (versionsOf l.records type stableId).insertionSort
        (fun r t => r.version ≤ t.version) ≠ [] := by
      intro hnil
      have hperm := List.perm_insertionSort (fun r t : DurableRecord => r.version ≤ t.version)
        (versionsOf l.records type stableId)
      rw [hnil] at hperm
      exact hempty hperm.symm.eq_nil
    obtain ⟨tip, htip⟩ := Option.ne_none_iff_exists'.mp
      (mt List.getLast?_eq_none_iff.mp hsorted)
    have hlineage : Lineage.IsLineage DurableRecord.id DurableRecord.previousVersionId
        DurableRecord.version (versionsOf l.records type stableId) tip.id := by
      apply Lineage.IsLineage.of_numbered _ _ hids
      · intro r hr t ht hsame
        obtain ⟨hr, hro⟩ := (hrow r).mp hr
        obtain ⟨ht, hto⟩ := (hrow t).mp ht
        rw [ordinal_inj l h r t hr ht (by rw [hro]; rfl) (by rw [hro, hto, hsame])]
      · intro r hr
        obtain ⟨hr, hro⟩ := (hrow r).mp hr
        obtain ⟨i, hi⟩ := h.records r hr
        rcases version_follows l.records i r _ _ _ (h.schemas r hr) hi hro with
          hfirst | ⟨u, m, ⟨hu, huo, hnamed, -, -⟩, hnumber⟩
        · exact Or.inl hfirst
        · have hversion : u.version = m := by
            rw [DurableRecord.version, huo]
            rfl
          refine Or.inr ⟨u, (hrow u).mpr ⟨hu, hversion.symm ▸ huo⟩, hnamed, ?_⟩
          rw [hversion]
          exact hnumber
      · rw [htip, Option.map_some]
    obtain ⟨chain, hperm, hlinked, -⟩ := hlineage.chain
    exact ⟨chain, hperm, hlinked, Lineage.linked_range _ _ chain hlinked⟩

end

/-! ## References of accepted ledgers -/

section

variable (records : List DurableRecord) (i : Nat)

theorem workPacket_resolves (p : WorkPacket)
    (h : workPacketIssues records i p = []) :
    ∀ ref ∈ [⟨p.projectId, .project⟩, ⟨p.projectVersionId, .projectVersion⟩,
        ⟨p.workItemId, .workItem⟩, ⟨p.workItemVersionId, .workItemVersion⟩,
        ⟨p.knowledgeSpaceVersionId, .knowledgeSpaceVersion⟩] ++
        p.includedRecords.map PacketIncludedRecord.record,
      Resolves records (some p.projectId) ref := by
  unfold workPacketIssues at h
  simp only [List.append_eq_nil_iff, issueIf_nil] at h
  obtain ⟨⟨⟨⟨⟨⟨⟨⟨⟨⟨hproject, hversion⟩, hitem⟩, hitemVersion⟩, hversionOwn⟩, hitemOwn⟩,
    hitemVersionOwn⟩, hspace⟩, -⟩, -⟩, hincluded⟩ := h
  intro ref href
  rcases List.mem_append.mp href with href | href
  · simp only [List.mem_cons, List.not_mem_nil, or_false] at href
    rcases href with rfl | rfl | rfl | rfl | rfl
    · exact project_resolves hproject
    · exact own_resolves hversion hversionOwn
    · exact own_resolves hitem hitemOwn
    · exact own_resolves hitemVersion hitemVersionOwn
    · exact shared_resolves (Or.inr (Or.inl rfl)) hspace
  · exact refs_resolve _ _ _ _ hincluded ref href

theorem attempt_resolves (a : Attempt)
    (h : attemptIssues records i a = []) :
    ∀ ref ∈ [⟨a.projectId, .project⟩, ⟨a.workItemId, .workItem⟩, ⟨a.workPacketId, .workPacket⟩,
        ⟨a.participantRefId, .participantRef⟩],
      Resolves records (some a.projectId) ref := by
  unfold attemptIssues at h
  simp only [List.append_eq_nil_iff, issueIf_nil] at h
  obtain ⟨⟨⟨⟨⟨hproject, hitem⟩, hpacket⟩, hitemOwn⟩, hpacketOwn⟩, hparticipant⟩ := h
  have hown : ¬ projectOf (requireRecord records a.workPacketId .workPacket) ≠
      some a.projectId := by
    intro hother
    rw [if_pos hother] at hpacketOwn
    cases hpacketOwn
  intro ref href
  simp only [List.mem_cons, List.not_mem_nil, or_false] at href
  rcases href with rfl | rfl | rfl | rfl
  · exact project_resolves hproject
  · exact own_resolves hitem hitemOwn
  · exact own_resolves hpacket hown
  · exact shared_resolves (Or.inr (Or.inr rfl)) hparticipant

/-- The project and the Work Item of an output are those of its attempt, which is looked up. -/
theorem output_resolves (l : CollaborationLedger) (haccepted : Accepted l) (i : Nat) (o : Output)
    (h : outputIssues l.records i o = []) :
    ∀ ref ∈ o.references, Resolves l.records (some o.projectId) ref := by
  unfold outputIssues at h
  simp only [List.append_eq_nil_iff, issueIf_nil] at h
  obtain ⟨⟨⟨⟨⟨⟨⟨hattempt, hpacket⟩, hattemptOwn⟩, hpacketOwn⟩, hsame⟩, -⟩, hartifacts⟩, -⟩ := h
  obtain ⟨r, hr⟩ := missing_nil hattempt
  obtain ⟨hmem, -, htype⟩ := requireRecord_some hr
  have hattemptResolves := own_resolves hattempt hattemptOwn
  cases r with
  | attempt a =>
      rw [hr] at hsame hattemptOwn
      simp only [Option.bind_some, DurableRecord.attempt?, issueIf_nil, not_or, not_not] at hsame
      have hproject : a.projectId = o.projectId := Option.some.inj (not_not.mp hattemptOwn)
      obtain ⟨j, hj⟩ := haccepted.records _ hmem
      have hall := attempt_resolves l.records j a hj
      rw [hproject, hsame.1] at hall
      intro ref href
      rcases List.mem_append.mp href with href | href
      · simp only [List.mem_cons, List.not_mem_nil, or_false] at href
        rcases href with rfl | rfl | rfl | rfl
        · exact hall _ List.mem_cons_self
        · exact hattemptResolves
        · exact hall _ (List.mem_cons_of_mem _ List.mem_cons_self)
        · exact own_resolves hpacket hpacketOwn
      · obtain ⟨artifactId, hartifact, rfl⟩ := List.mem_map.mp href
        obtain ⟨j, hj⟩ := each_mem _ _ hartifacts artifactId hartifact
        unfold artifactIssues at hj
        simp only [List.append_eq_nil_iff, issueIf_nil] at hj
        exact own_resolves hj.1.1 hj.1.2
  | _ => cases htype

/-- Whatever a record refers to is there, apart from what it supersedes. -/
theorem record_resolves (l : CollaborationLedger) (haccepted : Accepted l) (r : DurableRecord)
    (hr : r ∈ l.records) : ∀ ref ∈ r.references, Resolves l.records r.projectId ref := by
  obtain ⟨i, hi⟩ := haccepted.records r hr
  have hschema := haccepted.schemas r hr
  intro ref href
  rcases List.mem_append.mp href with href | href
  · cases r with
    | knowledgeSpace s => cases href
    | project p => cases href
    | participantRef p => cases href
    | knowledgeSpaceVersion v =>
        rw [List.mem_singleton.mp href]
        exact shared_resolves (Or.inl rfl) (List.append_eq_nil_iff.mp hi).1
    | projectVersion v =>
        simp only [recordIssues, projectVersionIssues, List.append_eq_nil_iff] at hi
        simp only [List.mem_cons, List.not_mem_nil, or_false] at href
        rcases href with rfl | rfl
        · exact project_resolves hi.1.1
        · exact shared_resolves (Or.inr (Or.inl rfl)) hi.1.2
    | workItem item =>
        rw [List.mem_singleton.mp href]
        exact project_resolves hi
    | workItemVersion v =>
        simp only [recordIssues, workItemVersionIssues, List.append_eq_nil_iff] at hi
        simp only [List.mem_cons, List.not_mem_nil, or_false] at href
        rcases href with rfl | rfl
        · exact project_resolves hi.1.1
        · exact ownWorkItem_resolves _ _ _ _ hi.1.2
    | workPacket p => exact workPacket_resolves l.records i p hi ref href
    | attempt a => exact attempt_resolves l.records i a hi ref href
    | artifact a => exact output_resolves l haccepted i a.output hi ref href
    | handoff h => exact output_resolves l haccepted i h.output hi ref href
    | review v =>
        rcases List.mem_append.mp href with href | href
        · exact output_resolves l haccepted i v.output hi ref href
        · -- What a finding refers to is among the artifacts of the review.
          obtain ⟨artifactId, hartifact, rfl⟩ := List.mem_map.mp href
          obtain ⟨finding, hfinding, hin⟩ := List.mem_flatMap.mp hartifact
          have hdeclared := review_findings v (List.append_eq_nil_iff.mp hschema).2 finding
            hfinding artifactId hin
          exact output_resolves l haccepted i v.output hi _
            (List.mem_append_right _ (List.mem_map_of_mem hdeclared))
    | decision d =>
        simp only [recordIssues, decisionIssues, List.append_eq_nil_iff] at hi
        obtain ⟨⟨hproject, hitem⟩, hinputs⟩ := hi
        rcases List.mem_append.mp href with href | href
        · simp only [List.mem_cons, List.not_mem_nil, or_false] at href
          rcases href with rfl | rfl
          · exact project_resolves hproject
          · exact ownWorkItem_resolves _ _ _ _ hitem
        · exact refs_resolve _ _ _ _ hinputs ref href
  · exact predecessor_resolves l.records i r hschema hi ref href

theorem event_resolves (e : OwnerEvent)
    (h : eventIssues records i e = []) :
    ∀ ref ∈ e.references, Resolves records (some e.projectId) ref := by
  obtain ⟨eventId, projectId, action⟩ := e
  unfold eventIssues at h
  rw [List.append_eq_nil_iff] at h
  obtain ⟨hproject, haction⟩ := h
  intro ref href
  rcases List.mem_cons.mp href with rfl | href
  · exact project_resolves hproject
  · cases action with
    | record eventType target =>
        rw [List.mem_singleton.mp href]
        exact target_resolves _ _ _ _ haction
    | superseded target replacement =>
        simp only [List.append_eq_nil_iff] at haction
        simp only [List.mem_cons, List.not_mem_nil, or_false] at href
        rcases href with rfl | rfl
        · exact target_resolves _ _ _ _ haction.1
        · exact target_resolves _ _ _ _ haction.2
    | workItem eventType workItemId =>
        rw [List.mem_singleton.mp href]
        exact ownWorkItem_resolves _ _ _ _ haction
    | project eventType => cases href
    | versionActivated projectVersionId =>
        simp only [List.append_eq_nil_iff, issueIf_nil] at haction
        rw [List.mem_singleton.mp href]
        exact own_resolves haction.1 haction.2

theorem edge_resolves (e : ProvenanceEdge)
    (h : edgeIssues records i e = []) :
    ∀ ref ∈ e.references, Resolves records (some e.projectId) ref := by
  unfold edgeIssues at h
  simp only [List.append_eq_nil_iff] at h
  obtain ⟨⟨hproject, hsubject⟩, hobject⟩ := h
  intro ref href
  simp only [ProvenanceEdge.references, List.mem_cons, List.not_mem_nil, or_false] at href
  rcases href with rfl | rfl | rfl
  · exact project_resolves hproject
  · exact node_resolves _ _ _ hsubject
  · exact node_resolves _ _ _ hobject

end

/-- An accepted ledger is coherent if what its records supersede is there. Nothing else is
    left unchecked. -/
theorem coherent_iff (l : CollaborationLedger) (h : collaborationLedgerSchema l = []) :
    Coherent l ↔
      ∀ r ∈ l.records, ∀ ref ∈ r.supersedes, Resolves l.records r.projectId ref := by
  have haccepted := accepted_of_schema l h
  constructor
  · exact fun hcoherent => hcoherent.superseded
  · intro hsuperseded
    exact {
      unique := ledger_unique l haccepted
      versions := ledger_lineages l haccepted
      records := record_resolves l haccepted
      superseded := hsuperseded
      events := by
        intro e he
        obtain ⟨i, hi⟩ := haccepted.events e he
        exact event_resolves l.records i e hi
      edges := by
        intro e he
        obtain ⟨i, hi⟩ := haccepted.edges e he
        exact edge_resolves l.records i e hi }

/-! ## A ledger with a dangling reference -/

def portableId (digit : String) : String :=
  "00000000-0000-4000-8000-00000000000" ++ digit

/-- A project with a packet, and an attempt that may supersede another record. -/
def attemptLedger (supersedesRecordId : Option String) : CollaborationLedger :=
  { ownerEvents := []
    provenanceEdges := []
    records := [
      .knowledgeSpace ⟨portableId "0"⟩,
      .knowledgeSpaceVersion ⟨portableId "0", portableId "1", [portableId "0"], none, 1⟩,
      .project ⟨portableId "2"⟩,
      .projectVersion ⟨portableId "1", ⟨1, 1, 0⟩, none, portableId "2", portableId "3", 1⟩,
      .workItem ⟨portableId "2", portableId "4"⟩,
      .workItemVersion ⟨none, portableId "2", 1, portableId "4", portableId "5"⟩,
      .participantRef ⟨portableId "6"⟩,
      .workPacket {
        createdAt := 1, evidenceObjects := [], expiresAt := 2, includedRecords := []
        knowledgeSpaceVersionId := portableId "1"
        outputContract := ⟨[.markdown], [.attempt], 1⟩
        packetId := portableId "7", projectId := portableId "2"
        projectVersionId := portableId "3", requestedRoleLabel := "role", sourceCitations := []
        workItemId := portableId "4", workItemVersionId := portableId "5" },
      .attempt {
        attemptId := portableId "8", claimedCompletedAt := none, claimedStartedAt := none
        participantRefId := portableId "6", projectId := portableId "2"
        requestedRoleLabel := "role", supersedesRecordId := supersedesRecordId
        workItemId := portableId "4", workPacketId := portableId "7" }] }

theorem plain_coherent : Coherent (attemptLedger none) := by
  have hschema : collaborationLedgerSchema (attemptLedger none) = [] := by
    decide +kernel
  apply (coherent_iff (attemptLedger none) hschema).mpr
  decide +kernel

/-- The attempt supersedes what is not there, or a project. -/
theorem dangling_accepted :
    (collaborationLedgerSchema (attemptLedger (some (portableId "9"))) = [] ∧
      ¬ Coherent (attemptLedger (some (portableId "9")))) ∧
    collaborationLedgerSchema (attemptLedger (some (portableId "2"))) = [] ∧
      ¬ Coherent (attemptLedger (some (portableId "2"))) := by
  have hdangling : ∀ id ∈ [portableId "9", portableId "2"],
      ¬ ∀ r ∈ (attemptLedger (some id)).records, ∀ ref ∈ r.supersedes,
        Resolves (attemptLedger (some id)).records r.projectId ref := by
    decide +kernel
  constructor
  · constructor
    · decide +kernel
    · intro hcoherent
      exact hdangling _ List.mem_cons_self hcoherent.superseded
  · constructor
    · decide +kernel
    · intro hcoherent
      exact hdangling _ (List.mem_cons_of_mem _ List.mem_cons_self) hcoherent.superseded

end Mdevolved.Contracts
