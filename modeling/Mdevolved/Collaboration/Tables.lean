import Mdevolved.Collaboration.Records

/-!
# Tables of the Collaboration Ledger

What is kept of a record besides the record: how it came, who may see it and what the owner
has made of it, and the grants under which records are submitted.

## Main definitions

* `RecordRow`, `StateRow`, `GrantRow`: The rows.
* `CollaborationDb`: The tables.
-/

namespace Mdevolved.Collaboration

/-- A record together with what is kept of how it came. Its other columns are those of the
    record, and so is the key of its body. -/
structure RecordRow where
  record : CollaborationRecord
  portableObjectId : String
  producerClientId : Option String
  historicalGrantId : Option String
  receivedAt : Int
  restoredAt : Option Int

namespace RecordRow

def id (r : RecordRow) : String := r.record.id

def recordType (r : RecordRow) : RecordType := r.record.recordType

def projectId (r : RecordRow) : Option String := r.record.recordProjectId

def workItemId (r : RecordRow) : Option String := r.record.recordWorkItemId

end RecordRow

inductive Visibility
  | privateTo | shared | ownerOnly

inductive Disposition
  | pending | accepted | rejected | quarantined | superseded
  deriving DecidableEq

structure StateRow where
  recordId : String
  visibility : Visibility
  disposition : Disposition
  lastOwnerEventId : Option String
  changedAt : Int

inductive GrantStatus
  | pending | active | revoked

inductive CollaborationScope
  | projectRead | projectLead | collaborationSubmit | reviewSubmit | proposalStatus

structure GrantRow where
  id : String
  sourceAgentGrantId : String
  oauthClientId : String
  audience : String
  projectId : String
  knowledgeSpaceVersionId : String
  scopes : List CollaborationScope
  status : GrantStatus
  issuedAt : Int
  expiresAt : Int
  lastUsedAt : Option Int

/-- The tables that a timeline is read from. -/
structure CollaborationDb where
  records : List RecordRow
  states : List StateRow
  grants : List GrantRow

def emptyDb : CollaborationDb :=
  { records := [], states := [], grants := [] }

end Mdevolved.Collaboration
