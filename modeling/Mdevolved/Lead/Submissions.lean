import Mdevolved.Lead.Mutations

/-!
# Submissions to a Run

What the actors of a Run submit. A bundle carries results, requests for review and
reviews. Whether it is admitted is a matter of the scopes of its author, and of
who reviews what: a review is requested from an actor that may review and is not
the author of what is reviewed, and is taken from the actor it was requested from.

There are two functions that decide this. One takes a single bundle into a Run
that is not elastic and asks the tables event by event. The other takes several
bundles into an elastic Run, reads the actors and the bundles of the Run at once,
and looks the events up in an index that has the bundles of the batch in it too.
It also takes what was used from the budget of the Run, as reported.

## Main definitions

* `admitRunBundle`, `admitRunBundles`: Whether bundles are admitted.
* `EventBundle.row`: What is kept of a bundle.
* `submitRunBundle`, `submitRunBundlesBatch`: Taking bundles in.
* `submitRunBudgetEntry`: Accounting for something by itself.
-/

namespace Mdevolved.Lead

open Elastic (PreparedBundle DeltaMutation metadata)

/-! ## Scopes and reviews -/

/-- An actor that may still act. -/
def ActorRow.live (now : Nat) (actor : ActorRow) : Bool :=
  actor.status = .active && now < actor.expiresAt

/-- An actor that may be asked for a review of what another has submitted. -/
def independentReviewer (now : Nat) (author : Option String) (reviewer : Option ActorRow) : Bool :=
  match author, reviewer with
  | some author, some reviewer =>
      reviewer.live now && author ≠ reviewer.actorId && reviewer.scopes.contains .runReviewSubmit
  | _, _ => false

/-- The scopes that the events of a bundle need. -/
def EventBundle.needsBundleScope (bundle : EventBundle) : Bool :=
  bundle.events.any (fun event => event.review.isNone)

def EventBundle.needsReviewScope (bundle : EventBundle) : Bool :=
  bundle.events.any (fun event => event.review.isSome)

def EventBundle.withinScopes (bundle : EventBundle) (scopes : List LeadOperationScope) : Bool :=
  (!bundle.needsBundleScope || scopes.contains .runBundleSubmit) &&
    (!bundle.needsReviewScope || scopes.contains .runReviewSubmit)

/-- Go on where a condition holds, and deny the mutation where it does not. -/
def denyUnless (c : Bool) (e : Envelope) (operation : LeadOperation) (exception : ExceptionRow) :
    LeadProcess Unit :=
  if c then return () else deny e operation exception

/-- Whether a review may be requested: of a bundle of the Run that has a result,
    and not from its author. -/
def reviewRequestAdmitted (e : Envelope) (runId : String) :
    Option (String × String) → LeadProcess Bool
  | none => return true
  | some (targetBundleId, reviewerActorId) => do
      let author ← ask (.readReviewTarget e.projectId runId targetBundleId)
      let reviewer ← ask (.readActorRow reviewerActorId e.projectId runId)
      return independentReviewer e.now author reviewer

/-- Whether a review may be submitted: by an actor it was requested from, who is not
    the author of what is reviewed. -/
def reviewResultAdmitted (e : Envelope) (runId actorId : String) :
    Option (String × ReviewVerdict) → LeadProcess Bool
  | none => return true
  | some (targetBundleId, _) => do
      let author ← ask (.readReviewRouting e.projectId runId targetBundleId actorId)
      return author.any (fun author => author ≠ actorId)

/-- Whether a bundle is admitted to a Run that is not elastic. -/
def admitRunBundle (e : Envelope) (run : RunRow) (bundle : EventBundle) (exceptionId : String) :
    LeadProcess Unit := do
  let actor? ← ask (.readActorRow bundle.actorId e.projectId run.runId)
  let actor ← check (found (actor?.filter (ActorRow.live e.now)) .actorInvalid)
  let _ ← check (require (bundle.requests.length ≤ 1 && bundle.reviews.length ≤ 1) .bundleInvalid)
  let exception := makeException e run exceptionId (some bundle.actorId)
  denyUnless (bundle.withinScopes actor.scopes) e .submitBundle (exception .actorScope)
  let requested ← reviewRequestAdmitted e run.runId bundle.requests.head?
  denyUnless requested e .submitBundle (exception .reviewIndependence)
  let reviewed ← reviewResultAdmitted e run.runId bundle.actorId bundle.reviews.head?
  denyUnless reviewed e .submitBundle (exception .reviewIndependence)
  let exists' ← ask (.bundleExists [bundle.bundleId])
  check (require (!exists') .idempotencyConflict)

/-- What the index of a batch knows of a bundle. -/
structure BundleIndexEntry where
  bundleId : String
  actorId : String
  hasProvisional : Bool
  requestedReviewerActorId : Option String
  reviewRequestTargetBundleId : Option String

def EventBundleRow.indexEntry (b : EventBundleRow) : BundleIndexEntry :=
  { bundleId := b.bundleId
    actorId := b.actorId
    hasProvisional := b.hasProvisionalResult
    requestedReviewerActorId := b.requestedReviewerActorId
    reviewRequestTargetBundleId := b.reviewRequestTargetBundleId }

/-- Of several requests the index keeps the first. -/
def EventBundle.indexEntry (bundle : EventBundle) : BundleIndexEntry :=
  { bundleId := bundle.bundleId
    actorId := bundle.actorId
    hasProvisional := bundle.hasProvisional
    requestedReviewerActorId := bundle.requests.head?.map Prod.snd
    reviewRequestTargetBundleId := bundle.requests.head?.map Prod.fst }

/-- The bundles of a Run, and those of the batch in their place or after them. -/
def bundleIndex (prior : List EventBundleRow) (bundles : List EventBundle) :
    List BundleIndexEntry :=
  (bundles.map EventBundle.indexEntry).foldl
    (Table.upsert BundleIndexEntry.bundleId (fun _ entry => entry))
    (prior.map EventBundleRow.indexEntry)

/-- The author of a bundle that the index knows to have a result. -/
def indexTarget (index : List BundleIndexEntry) (bundleId : String) : Option String :=
  ((index.find? (fun entry => entry.bundleId = bundleId)).filter
    BundleIndexEntry.hasProvisional).map BundleIndexEntry.actorId

def actorIn (actors : List ActorRow) (actorId : String) : Option ActorRow :=
  actors.find? (fun a => a.actorId = actorId)

/-- Whether an event of a bundle is admitted by what was read. -/
def eventAdmitted (now : Nat) (actors : List ActorRow) (index : List BundleIndexEntry)
    (actorId : String) (event : RunEvent) : Bool :=
  event.request.all (fun r =>
    independentReviewer now (indexTarget index r.1) (actorIn actors r.2)) &&
  event.review.all (fun r =>
    (indexTarget index r.1).any (fun author => author ≠ actorId) &&
      index.any (fun candidate => candidate.reviewRequestTargetBundleId = some r.1 &&
        candidate.requestedReviewerActorId = some actorId))

/-- The author of a bundle may submit it. -/
def authorAdmitted (now : Nat) (actors : List ActorRow) (bundle : EventBundle) :
    Except LeadError Unit :=
  match (actorIn actors bundle.actorId).filter (ActorRow.live now) with
  | none => .error (problem .actorInvalid)
  | some actor => require (bundle.withinScopes actor.scopes) .scopeRequired

def authorsAdmitted (now : Nat) (actors : List ActorRow) : List EventBundle → Except LeadError Unit
  | [] => .ok ()
  | bundle :: bundles =>
      match authorAdmitted now actors bundle with
      | .error e => .error e
      | .ok _ => authorsAdmitted now actors bundles

/-- The actors that a batch is about: its authors, and those it requests reviews
    from. -/
def batchActorIds (bundles : List EventBundle) : List String :=
  bundles.flatMap (fun bundle => bundle.actorId :: bundle.requests.map Prod.snd)

/-- Whether a batch of bundles is admitted to an elastic Run. -/
def admitRunBundles (e : Envelope) (run : RunRow) (bundles : List EventBundle)
    (exceptionId : String) : LeadProcess Unit := do
  let actors ← ask (.readActorRows e.projectId run.runId (batchActorIds bundles))
  let _ ← check (authorsAdmitted e.now actors bundles)
  let prior ← ask (.readPriorBundles e.projectId run.runId)
  let index := bundleIndex prior bundles
  match bundles.find? (fun bundle =>
      !bundle.events.all (eventAdmitted e.now actors index bundle.actorId)) with
  | some bundle =>
      deny e .submitBundlesBatch
        (makeException e run exceptionId (some bundle.actorId) .reviewIndependence)
  | none => do
      let exists' ← ask (.bundleExists (bundles.map EventBundle.bundleId))
      check (require (!exists') .idempotencyConflict)

/-! ## What is kept -/

def EventBundle.claimRows (bundle : EventBundle) (runId : String) : List RunClaimRow :=
  (bundle.events.flatMap RunEvent.claims).map (fun claim =>
    { runId := runId
      bundleId := bundle.bundleId
      claimKey := claim.key
      valueSha256 := claim.valueSha256
      evidenceSha256 := claim.evidenceSha256 })

/-- The claims of bundles, of which the last counts where a key is given the same
    value twice. -/
def uniqueClaims (runId : String) (bundles : List EventBundle) : List RunClaimRow :=
  (bundles.flatMap (fun bundle => bundle.claimRows runId)).foldl
    (Table.upsert (fun c => (c.claimKey, c.valueSha256)) (fun _ claim => claim)) []

/-- The claims that a Run has on the keys of others. -/
def readExistingClaims (runId : String) (claims : List RunClaimRow) :
    LeadProcess (List RunClaimRow) :=
  if claims.isEmpty then return []
  else ask (.readClaims runId (claims.map RunClaimRow.claimKey).dedup)

/-- A claim whose key has another value too. -/
def conflicting (claims : List RunClaimRow) (claim : RunClaimRow) : Bool :=
  claims.any (fun c => c.claimKey = claim.claimKey && c.valueSha256 ≠ claim.valueSha256)

def RequestedAction.kind : RequestedAction → ExceptionKind
  | authorityExpansion => .authorityExpansion
  | destructiveAction => .destructiveAction
  | protectedPathAccess => .protectedPathAccess

/-- An exception for every action that was asked for and is not done. -/
def requestedExceptions (e : Envelope) (run : RunRow) (exceptionIds : List String)
    (bundles : List EventBundle) : List ExceptionRow :=
  (bundles.flatMap (fun bundle => bundle.requestedActions.map (fun action =>
    (bundle, action)))).mapIdx (fun index (bundle, action) =>
      { makeException e run (exceptionIds.getD index "") (some bundle.actorId) action.kind with
        requestedAction := some action
        normalizedRelativePath :=
          if action = .protectedPathAccess then bundle.normalizedRelativePath else none })

/-- An exception where a key was given different values, with what they rest on. -/
def conflictExceptions (e : Envelope) (run : RunRow) (exceptionId : String)
    (actorId : Option String) (existing claims : List RunClaimRow) : List ExceptionRow :=
  let conflicts := claims.filter (conflicting (existing ++ claims))
  if conflicts.isEmpty then []
  else [{ makeException e run exceptionId actorId .evidenceConflict with
    evidenceRefs := (conflicts.flatMap (fun c =>
      c.valueSha256 :: c.evidenceSha256.toList)).take 64 }]

/-- The exceptions that bundles leave when they are taken in. -/
def bundleExceptions (e : Envelope) (run : RunRow) (exceptionIds : List String)
    (actorId : Option String) (bundles : List EventBundle) (existing claims : List RunClaimRow) :
    List ExceptionRow :=
  let requested := requestedExceptions e run exceptionIds bundles
  requested ++ conflictExceptions e run (exceptionIds.getD requested.length "") actorId existing
    claims

section

variable (format : LeadFormat)

/-! ## A single bundle -/

structure SubmitBundleInput where
  envelope : Envelope
  runId : String
  bundle : EventBundle
  exceptionIds : List String

def SubmitBundleInput.valid (input : SubmitBundleInput) : Bool :=
  input.bundle.valid format.isProtectedPath format.byteLength &&
    input.bundle.projectId = input.envelope.projectId && input.bundle.runId = input.runId

def submitRunBundle (input : SubmitBundleInput) : LeadProcess LeadResult := do
  let e := input.envelope
  let bundle := input.bundle
  let _ ← check (require (input.valid format) .submissionInvalid)
  mutation e .submitBundle (do
    let read ← ask (.readRunRow e.projectId input.runId)
    let run ← check (activeRun none read)
    let plane ← ask (.readPlane e.projectId input.runId)
    let _ ← check (require plane.isNone .submissionInvalid)
    let exceptionId := input.exceptionIds.getD 0 ""
    let _ ← admitRunBundle e run bundle exceptionId
    let _ ← ask .prepareRecords
    let byteLength := format.byteLength bundle
    let _ ← denyUnless (run.bundleCount < maxR2BundlesPerRun &&
        run.logicalBytes + byteLength ≤ maxR2RunLogicalBytes) e .submitBundle
      (makeException e run exceptionId (some bundle.actorId) .budgetExhausted)
    let claims := uniqueClaims input.runId [bundle]
    let existing ← readExistingClaims input.runId claims
    let _ ← ask .prepareRecords
    commit (.submitBundle {
        envelope := e
        runId := input.runId
        bundle := bundle
        byteLength := byteLength
        claims := claims
        exceptions := bundleExceptions e run input.exceptionIds (some bundle.actorId) [bundle]
          existing claims })
      (.bundleSubmitted bundle.bundleId))

/-! ## A batch of bundles -/

/-- What the harness reports to have been used for a bundle. -/
structure BundleUsage where
  logicalUnits : Nat
  costMicrounits : Nat
  reportedBy : String

structure SubmitBundlesInput where
  envelope : Envelope
  runId : String
  items : List (EventBundle × BundleUsage)
  entryIds : List String
  exceptionIds : List String
  /-- The identifiers of the deltas. -/
  uuids : List String

namespace SubmitBundlesInput

def bundles (input : SubmitBundlesInput) : List EventBundle :=
  input.items.map Prod.fst

def valid (input : SubmitBundlesInput) : Bool :=
  1 ≤ input.items.length && input.items.length ≤ maxR3BundleBatch &&
    input.bundles.all (fun bundle =>
      bundle.valid format.isProtectedPath format.byteLength &&
        bundle.projectId = input.envelope.projectId && bundle.runId = input.runId) &&
    (input.bundles.map EventBundle.bundleId).Nodup &&
    input.items.all (fun item => 0 < item.2.logicalUnits || 0 < item.2.costMicrounits)

def logicalUnits (input : SubmitBundlesInput) : Nat :=
  (input.items.map (fun item => item.2.logicalUnits)).sum

def costMicrounits (input : SubmitBundlesInput) : Nat :=
  (input.items.map (fun item => item.2.costMicrounits)).sum

/-- An entry of the budget for each bundle. -/
def entries (input : SubmitBundlesInput) (budgetId : String) : List BudgetEntry :=
  input.items.mapIdx (fun index (bundle, usage) =>
    { entryId := input.entryIds.getD index ""
      budgetId := budgetId
      projectId := input.envelope.projectId
      runId := input.runId
      actorId := some bundle.actorId
      logicalUnits := usage.logicalUnits
      costMicrounits := usage.costMicrounits
      reportedBy := usage.reportedBy
      createdAt := input.envelope.now
      metadata := metadata input.envelope.now .warm })

/-- The bundles with the lengths of their texts. -/
def measured (input : SubmitBundlesInput) : List (EventBundle × Nat) :=
  input.bundles.map (fun bundle => (bundle, format.byteLength bundle))

/-- The bundles with the entries made for them. -/
def prepared (input : SubmitBundlesInput) (budgetId : String) : List PreparedBundle :=
  (input.bundles.zip (input.entries budgetId)).map (fun (bundle, entry) =>
    { bundleId := bundle.bundleId
      contentSha256 := format.contentSha256 (.bundle bundle)
      entryId := entry.entryId
      entryContentSha256 := format.contentSha256 (.entry entry) })

end SubmitBundlesInput

def submitRunBundlesBatch (input : SubmitBundlesInput) : LeadProcess LeadResult := do
  let e := input.envelope
  let _ ← check (require (input.valid format) .submissionInvalid)
  mutation e .submitBundlesBatch (do
    let read ← ask (.readRunRow e.projectId input.runId)
    let run ← check (activeRun none read)
    let plane ← ask (.readPlane e.projectId input.runId)
    let _ ← check (require plane.isSome .runInvalid)
    let exceptionId := input.exceptionIds.getD 0 ""
    let _ ← admitRunBundles e run input.bundles exceptionId
    let _ ← ask .prepareRecords
    let count := input.bundles.length
    let addedBytes := ((input.measured format).map Prod.snd).sum
    let _ ← check (if run.bundleCount + count ≤ maxR2BundlesPerRun &&
        run.logicalBytes + addedBytes ≤ maxR2RunLogicalBytes then .ok ()
      else .error (backpressure count (maxR2BundlesPerRun - run.bundleCount)))
    let budget? ← ask (.readBudget e.projectId input.runId)
    let budget ← check (found budget? .runInvalid)
    let _ ← denyUnless (budget.fits input.logicalUnits input.costMicrounits) e .submitBundlesBatch
      (makeException e run exceptionId none .budgetExhausted)
    let _ ← ask .prepareRecords
    let claims := uniqueClaims input.runId input.bundles
    let existing ← readExistingClaims input.runId claims
    let _ ← ask .prepareRecords
    let deltas ← ask (.prepareRunDeltas e.projectId input.runId input.uuids
      ((DeltaMutation.submitRunBundlesBatch (input.prepared format budget.budgetId)).deltas e.now))
    settle e .submitBundlesBatch (mapDatabaseFailure count)
      (.submitBundles {
        envelope := e
        runId := input.runId
        bundles := input.measured format
        claims := claims
        exceptions := bundleExceptions e run input.exceptionIds none input.bundles existing claims
        budget := budget
        entries := input.entries budget.budgetId
        deltas := deltas })
      (.bundlesSubmitted input.runId (input.bundles.map EventBundle.bundleId)))

/-! ## A budget entry by itself -/

structure SubmitBudgetEntryInput where
  envelope : Envelope
  entry : BudgetEntry
  exceptionId : String
  /-- The identifiers of the deltas. -/
  uuids : List String

def BudgetEntry.valid (entry : BudgetEntry) : Bool :=
  (0 < entry.logicalUnits || 0 < entry.costMicrounits) &&
    entry.createdAt ≤ entry.metadata.retainUntil

/-- The actor of an entry, where it has one, may still act. -/
def reportingActor (e : Envelope) (runId : String) : Option String → LeadProcess Unit
  | none => return ()
  | some actorId => do
      let actor ← ask (.readActorRow actorId e.projectId runId)
      check (require (actor.any (ActorRow.live e.now)) .actorInvalid)

def submitRunBudgetEntry (input : SubmitBudgetEntryInput) : LeadProcess LeadResult := do
  let e := input.envelope
  let entry := input.entry
  let _ ← check (require (entry.valid && entry.projectId = e.projectId) .submissionInvalid)
  mutation e .submitBudgetEntry (do
    let read ← ask (.readRunRow e.projectId entry.runId)
    let run ← check (activeRun none read)
    let plane ← ask (.readPlane e.projectId entry.runId)
    let _ ← check (require plane.isSome .runInvalid)
    let budget? ← ask (.readBudget e.projectId entry.runId)
    let budget ← check (found (budget?.filter (fun b => b.budgetId = entry.budgetId)) .runInvalid)
    let _ ← denyUnless (budget.fits entry.logicalUnits entry.costMicrounits) e .submitBudgetEntry
      (makeException e run input.exceptionId entry.actorId .budgetExhausted)
    let _ ← reportingActor e entry.runId entry.actorId
    let plane ← ask (.readPlane e.projectId entry.runId)
    let _ ← check (require plane.isSome .runInvalid)
    let exists' ← ask (.elasticRecordExists entry.entryId)
    let _ ← check (require (!exists') .idempotencyConflict)
    let _ ← ask .prepareRecords
    let deltas ← ask (.prepareRunDeltas e.projectId entry.runId input.uuids
      ((DeltaMutation.submitRunBudgetEntry entry.entryId
        (format.contentSha256 (.entry entry))).deltas e.now))
    settle e .submitBudgetEntry (mapDatabaseFailure 1)
      (.submitBudgetEntry { envelope := e, entry := entry, budget := budget, deltas := deltas })
      (.budgetEntrySubmitted entry.entryId))

end

end Mdevolved.Lead
