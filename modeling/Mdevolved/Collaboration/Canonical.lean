import Mdevolved.Lib.JsValue

/-!
# Canonical Texts

Every hash of content, every check that a request was made before, and the digest of a ledger
rest on one encoder. It writes a value with the members of its objects in the order of their
names, zero without a sign, and refuses what JSON has no text for. What is written tells the
value, up to the order of members, and is read back as it.

The digest of a document is taken of the document without it.

## Main definitions

* `canonicalizeCollaborationJson`: The encoder.
* `canonicalizeIntegrityPayload`: What the digest of a document is taken of.
* `withDigest`: A document with another digest.

## Theorems

* `canonicalize_text`: What is written is the text of the value in order.
* `payload_eq_iff`: What the text of a document without its digest tells.
* `canonical_tells`: What texts tell of values and of documents.
-/

namespace Mdevolved.Collaboration

open JsValue

structure TypeError where
  message : String
  deriving DecidableEq

def notCanonical : TypeError :=
  { message := "Only finite JSON values can be canonicalized." }

mutual

def canonicalJsonValue : JsValue → Except TypeError JsValue
  | null => .ok null
  | .bool b => .ok (.bool b)
  | str s => .ok (str s)
  | num (.finite d) => .ok (num (.finite d))
  | num .negativeZero => .ok (num (.finite Decimal.zero))
  | num .nonFinite => .error notCanonical
  | arr items => (canonicalItems items).map arr
  | obj members => (canonicalMembers members).map ofMembers
  | other => .error notCanonical

def canonicalItems : List JsValue → Except TypeError (List JsValue)
  | [] => .ok []
  | x :: rest =>
      match canonicalJsonValue x with
      | .error error => .error error
      | .ok y => (canonicalItems rest).map (y :: ·)

def canonicalMembers :
    List (JsString × JsValue) → Except TypeError (List (JsString × JsValue))
  | [] => .ok []
  | (k, v) :: rest =>
      match canonicalJsonValue v with
      | .error error => .error error
      | .ok w => (canonicalMembers rest).map ((k, w) :: ·)

end

mutual

/-- Neither arrays nor objects are left to `JSON.stringify`. -/
def canonicalText : JsValue → List Char
  | arr items => '[' :: ([','].intercalate (canonicalTexts items) ++ [']'])
  | obj members =>
      '{' :: ([','].intercalate ((sortMembers (memberTexts members)).map
        (fun m => m.1.quote ++ ':' :: m.2)) ++ ['}'])
  | v => v.text

def canonicalTexts : List JsValue → List (List Char)
  | [] => []
  | x :: rest => canonicalText x :: canonicalTexts rest

def memberTexts : List (JsString × JsValue) → List (JsString × List Char)
  | [] => []
  | (k, v) :: rest => (k, canonicalText v) :: memberTexts rest

end

def canonicalizeCollaborationJson (value : JsValue) : Except TypeError String :=
  (canonicalJsonValue value).map (fun item => String.ofList (canonicalText item))

/-! ## The text of a value in order -/

theorem itemsText_eq (items : List JsValue) :
    itemsText items = [','].intercalate (items.map text) := by
  induction items with
  | nil => rfl
  | cons x rest ih =>
      cases rest with
      | nil => rw [itemsText, List.map_singleton, List.intercalate_singleton]
      | cons y rest =>
          simp only [itemsText, ih, List.map_cons, List.intercalate_cons_cons]
          simp

theorem membersText_eq (members : List (JsString × JsValue)) :
    membersText members =
      [','].intercalate (members.map (fun m => m.1.quote ++ ':' :: text m.2)) := by
  induction members with
  | nil => rfl
  | cons m rest ih =>
      cases rest with
      | nil => rw [membersText, List.map_singleton, List.intercalate_singleton]
      | cons n rest =>
          simp only [membersText, ih, List.map_cons, List.intercalate_cons_cons]
          simp

/-- Members are put in order by their names alone. -/
theorem sortMembers_map {α β : Type} (f : α → β) (members : List (JsString × α)) :
    (sortMembers members).map (fun m => (m.1, f m.2)) =
      sortMembers (members.map (fun m => (m.1, f m.2))) := by
  apply List.map_insertionSort
  intro m _ n _
  exact Iff.rfl

mutual

/-- A value is written as the text of the value in order. -/
theorem canonicalize_text : (v : JsValue) → IsJson v →
    ∃ item, canonicalJsonValue v = .ok item ∧ canonicalText item = text (normal v)
  | null, _ => ⟨null, by simp [canonicalJsonValue], by simp [canonicalText, normal]⟩
  | .bool b, _ => ⟨.bool b, by simp [canonicalJsonValue], by simp [canonicalText, normal]⟩
  | str s, _ => ⟨str s, by simp [canonicalJsonValue], by simp [canonicalText, normal]⟩
  | num x, h => by
      cases x with
      | finite d =>
          exact ⟨num (.finite d), by simp [canonicalJsonValue],
            by simp [canonicalText, normal, JsNumber.unsigned]⟩
      | negativeZero =>
          exact ⟨num (.finite Decimal.zero), by simp [canonicalJsonValue],
            by simp [canonicalText, normal, JsNumber.unsigned]⟩
      | nonFinite =>
          rw [IsJson] at h
          exact absurd rfl h
  | other, h => by
      rw [IsJson] at h
      exact h.elim
  | arr items, h => by
      rw [IsJson] at h
      obtain ⟨canonical, hcanonical, htexts⟩ := canonicalizeItems_text items h
      refine ⟨arr canonical, ?_, ?_⟩
      · rw [canonicalJsonValue, hcanonical]
        rfl
      · rw [canonicalText, normal, text, itemsText_eq, htexts]
  | obj members, h => by
      rw [IsJson] at h
      obtain ⟨canonical, hcanonical, hnames, htexts⟩ := canonicalizeMembers_text members h.2
      have hset : ofMembers canonical = obj canonical := by
        rw [ofMembers, foldl_setMember, List.nil_append]
        rw [List.nil_append, hnames]
        exact h.1
      refine ⟨obj canonical, ?_, ?_⟩
      · rw [canonicalJsonValue, hcanonical, ← hset]
        rfl
      · rw [canonicalText, normal, text, membersText_eq, htexts, ← sortMembers_map, List.map_map]
        rfl

theorem canonicalizeItems_text : (items : List JsValue) → ItemsJson items →
    ∃ canonical, canonicalItems items = .ok canonical ∧
      canonicalTexts canonical = (normalItems items).map text
  | [], _ => ⟨[], by rw [canonicalItems], by rw [canonicalTexts, normalItems, List.map_nil]⟩
  | x :: rest, h => by
      rw [ItemsJson] at h
      obtain ⟨y, hy, htext⟩ := canonicalize_text x h.1
      obtain ⟨canonical, hcanonical, htexts⟩ := canonicalizeItems_text rest h.2
      refine ⟨y :: canonical, ?_, ?_⟩
      · rw [canonicalItems, hy, hcanonical]
        rfl
      · rw [canonicalTexts, normalItems, List.map_cons, htext, htexts]

theorem canonicalizeMembers_text : (members : List (JsString × JsValue)) → MembersJson members →
    ∃ canonical, canonicalMembers members = .ok canonical ∧
      canonical.map Prod.fst = members.map Prod.fst ∧
      memberTexts canonical = (normalMembers members).map (fun m => (m.1, text m.2))
  | [], _ => ⟨[], by rw [canonicalMembers], rfl, by rw [memberTexts, normalMembers, List.map_nil]⟩
  | (k, v) :: rest, h => by
      rw [MembersJson] at h
      obtain ⟨w, hw, htext⟩ := canonicalize_text v h.1
      obtain ⟨canonical, hcanonical, hnames, htexts⟩ := canonicalizeMembers_text rest h.2
      refine ⟨(k, w) :: canonical, ?_, ?_, ?_⟩
      · rw [canonicalMembers, hw, hcanonical]
        rfl
      · rw [List.map_cons, List.map_cons, hnames]
      · rw [memberTexts, normalMembers, List.map_cons, htext, htexts]

end

theorem canonicalize_ok (v : JsValue) (h : IsJson v) :
    canonicalizeCollaborationJson v = .ok (String.ofList (text (normal v))) := by
  obtain ⟨item, hitem, htext⟩ := canonicalize_text v h
  rw [canonicalizeCollaborationJson, hitem, ← htext]
  rfl

/-- Texts of values in order tell the values. -/
theorem canonicalize_eq_iff (v w : JsValue) (hv : IsJson v) (hw : IsJson w) :
    canonicalizeCollaborationJson v = canonicalizeCollaborationJson w ↔ Same v w := by
  rw [canonicalize_ok v hv, canonicalize_ok w hw, Except.ok.injEq, String.ofList_inj,
    ← normal_eq_iff v w hv hw]
  constructor
  · intro htext
    have hparse := parse_text (normal v) (normal_json v hv).1
    rw [htext, parse_text (normal w) (normal_json w hw).1, Option.some.injEq] at hparse
    exact hparse.symm
  · intro hnormal
    rw [hnormal]

/-! ## Documents with a digest -/

/-- What is left of members without one. -/
def without (name : JsString) (members : List (JsString × JsValue)) :
    List (JsString × JsValue) :=
  members.filter (fun m => m.1 ≠ name)

def integrityName : JsString := JsString.ofText "integrity"

def digestName : JsString := JsString.ofText "digest"

/-- A document that says in its integrity what its digest is. -/
structure LedgerDocument where
  members : List (JsString × JsValue)
  integrity : List (JsString × JsValue)
  digest : JsString
  closed : (integrityName, obj integrity) ∈ members
  signed : (digestName, str digest) ∈ integrity

def LedgerDocument.value (document : LedgerDocument) : JsValue :=
  obj document.members

def canonicalizeIntegrityPayload (document : LedgerDocument) : Except TypeError String :=
  canonicalizeCollaborationJson (obj (setMember (without integrityName document.members)
    (integrityName, obj (without digestName document.integrity))))

/-- A document with another digest. -/
def withDigest (digest : JsString) (document : LedgerDocument) : JsValue :=
  obj (setMember document.members
    (integrityName, obj (setMember document.integrity (digestName, str digest))))

section

variable (name : JsString) (members : List (JsString × JsValue))

/-- Setting a member puts it in front of the others, up to their order. -/
theorem setMember_perm (m : JsString × JsValue)
    (hnodup : (members.map Prod.fst).Nodup) :
    (setMember members m).Perm (m :: without m.1 members) := by
  have habsent : ∀ rest : List (JsString × JsValue), m.1 ∉ rest.map Prod.fst →
      rest.map (fun n => if n.1 = m.1 then m else n) = rest ∧ without m.1 rest = rest := by
    intro rest hrest
    have hother : ∀ n ∈ rest, n.1 ≠ m.1 := by
      intro n hn heq
      exact hrest (heq ▸ List.mem_map_of_mem hn)
    constructor
    · refine (List.map_congr_left (fun n hn => ?_)).trans (List.map_id' rest)
      rw [if_neg (hother n hn)]
    · exact List.filter_eq_self.mpr (fun n hn => decide_eq_true (hother n hn))
  unfold setMember
  split
  · next hpresent =>
    induction members with
    | nil => exact absurd hpresent List.not_mem_nil
    | cons n rest ih =>
        rw [List.map_cons, List.nodup_cons] at hnodup
        by_cases hn : n.1 = m.1
        · obtain ⟨hmap, hwithout⟩ := habsent rest (hn ▸ hnodup.1)
          have hfirst : without m.1 (n :: rest) = rest := by
            rw [without, List.filter_cons_of_neg (by simp [hn])]
            exact hwithout
          rw [List.map_cons, if_pos hn, hmap, hfirst]
        · have hrest : m.1 ∈ rest.map Prod.fst := by
            rw [List.map_cons, List.mem_cons] at hpresent
            exact hpresent.resolve_left (fun heq => hn heq.symm)
          have hfirst : without m.1 (n :: rest) = n :: without m.1 rest :=
            List.filter_cons_of_pos (by simp [hn])
          rw [List.map_cons, if_neg hn, hfirst]
          exact ((ih hnodup.2 hrest).cons n).trans (List.Perm.swap m n _)
  · next hnew =>
    rw [(habsent members hnew).2]
    exact List.perm_append_singleton m members

/-- Whether objects are the same does not depend on the order of their members. -/
theorem same_obj_iff (members members' : List (JsString × JsValue)) :
    Same (obj members) (obj members') ↔ members.length = members'.length ∧
      ∀ m ∈ members, ∃ w, (m.1, w) ∈ members' ∧ Same m.2 w := by
  rw [Same, sameMembers_iff]

theorem same_obj_perm (members members' others others' : List (JsString × JsValue))
    (h : members.Perm members') (h' : others.Perm others') :
    Same (obj members) (obj others) ↔ Same (obj members') (obj others') := by
  simp only [same_obj_iff, h.length_eq, h'.length_eq, h.mem_iff, h'.mem_iff]

/-- Objects that have one member of a name are the same if those are and what is left is. -/
theorem same_obj_cons (k : JsString) (v w : JsValue) (members others : List (JsString × JsValue))
    (hmembers : k ∉ members.map Prod.fst) (hothers : k ∉ others.map Prod.fst) :
    Same (obj ((k, v) :: members)) (obj ((k, w) :: others)) ↔
      Same v w ∧ Same (obj members) (obj others) := by
  rw [same_obj_iff, same_obj_iff]
  constructor
  · rintro ⟨hlength, hall⟩
    rw [List.length_cons, List.length_cons, Nat.add_right_cancel_iff] at hlength
    refine ⟨?_, hlength, fun m hm => ?_⟩
    · obtain ⟨w', hmem, hsame⟩ := hall (k, v) List.mem_cons_self
      rcases List.mem_cons.mp hmem with heq | hmem
      · rw [Prod.mk.injEq] at heq
        exact heq.2 ▸ hsame
      · exact absurd (List.mem_map_of_mem hmem) hothers
    · obtain ⟨w', hmem, hsame⟩ := hall m (List.mem_cons_of_mem _ hm)
      rcases List.mem_cons.mp hmem with heq | hmem
      · rw [Prod.mk.injEq] at heq
        exact absurd (heq.1 ▸ List.mem_map_of_mem hm) hmembers
      · exact ⟨w', hmem, hsame⟩
  · rintro ⟨hsame, hlength, hall⟩
    refine ⟨by rw [List.length_cons, List.length_cons, hlength], fun m hm => ?_⟩
    rcases List.mem_cons.mp hm with rfl | hm
    · exact ⟨w, List.mem_cons_self, hsame⟩
    · obtain ⟨w', hmem, hsame'⟩ := hall m hm
      exact ⟨w', List.mem_cons_of_mem _ hmem, hsame'⟩

theorem not_mem_without :
    name ∉ (without name members).map Prod.fst := by
  intro hmem
  obtain ⟨m, hm, rfl⟩ := List.mem_map.mp hmem
  simpa using (List.mem_filter.mp hm).2

theorem without_nodup (hnodup : (members.map Prod.fst).Nodup) : ((without name members).map Prod.fst).Nodup :=
  hnodup.sublist (List.filter_sublist.map Prod.fst)

theorem without_without :
    without name (without name members) = without name members := by
  rw [without, without, List.filter_filter]
  simp

end

/-- Objects in which a member was set are the same if the members are and what is beside them. -/
theorem same_setMember_iff (k : JsString) (v w : JsValue)
    (members others : List (JsString × JsValue)) (hmembers : (members.map Prod.fst).Nodup)
    (hothers : (others.map Prod.fst).Nodup) :
    Same (obj (setMember members (k, v))) (obj (setMember others (k, w))) ↔
      Same v w ∧ Same (obj (without k members)) (obj (without k others)) := by
  rw [same_obj_perm _ _ _ _ (setMember_perm members (k, v) hmembers)
    (setMember_perm others (k, w) hothers)]
  exact same_obj_cons k v w _ _ (not_mem_without k members) (not_mem_without k others)

theorem integrity_json (document : LedgerDocument) (h : IsJson document.value) :
    (document.members.map Prod.fst).Nodup ∧ (document.integrity.map Prod.fst).Nodup ∧
      MembersJson document.members ∧ MembersJson document.integrity := by
  rw [LedgerDocument.value, IsJson] at h
  have hintegrity := (membersJson_iff _).mp h.2 _ document.closed
  rw [IsJson] at hintegrity
  exact ⟨h.1, hintegrity.1, h.2, hintegrity.2⟩

/-- What the digest is taken of is JSON. -/
theorem payload_json (document : LedgerDocument) (h : IsJson document.value) :
    IsJson (obj (setMember (without integrityName document.members)
      (integrityName, obj (without digestName document.integrity)))) := by
  obtain ⟨hmembers, hintegrity, hjson, hjson'⟩ := integrity_json document h
  have hperm := setMember_perm (without integrityName document.members)
    (integrityName, obj (without digestName document.integrity)) (without_nodup _ _ hmembers)
  have hleft : ∀ (name : JsString) (members : List (JsString × JsValue)), MembersJson members →
      MembersJson (without name members) := by
    intro name members hall
    rw [membersJson_iff] at hall ⊢
    exact fun m hm => hall m (List.mem_filter.mp hm).1
  rw [without_without] at hperm
  rw [IsJson, membersJson_iff]
  constructor
  · rw [(hperm.map Prod.fst).nodup_iff, List.map_cons, List.nodup_cons]
    exact ⟨not_mem_without _ _, without_nodup _ _ hmembers⟩
  · intro m hm
    rcases List.mem_cons.mp (hperm.subset hm) with rfl | hm
    · rw [IsJson]
      exact ⟨without_nodup _ _ hintegrity, hleft _ _ hjson'⟩
    · exact (membersJson_iff _).mp (hleft _ _ hjson) m hm

/-- What the digests of documents are taken of is one text exactly if the documents are the same
    whatever digest both are given. -/
theorem payload_eq_iff (document document' : LedgerDocument) (h : IsJson document.value)
    (h' : IsJson document'.value) :
    canonicalizeIntegrityPayload document = canonicalizeIntegrityPayload document' ↔
      ∀ digest, Same (withDigest digest document) (withDigest digest document') := by
  obtain ⟨hmembers, hintegrity, -, -⟩ := integrity_json document h
  obtain ⟨hmembers', hintegrity', -, -⟩ := integrity_json document' h'
  unfold canonicalizeIntegrityPayload withDigest
  rw [canonicalize_eq_iff _ _ (payload_json document h) (payload_json document' h'),
    same_setMember_iff _ _ _ _ _ (without_nodup _ _ hmembers) (without_nodup _ _ hmembers'),
    without_without, without_without]
  have hset : ∀ digest,
      Same (obj (setMember document.members
          (integrityName, obj (setMember document.integrity (digestName, str digest)))))
        (obj (setMember document'.members
          (integrityName, obj (setMember document'.integrity (digestName, str digest))))) ↔
      Same (obj (without digestName document.integrity))
          (obj (without digestName document'.integrity)) ∧
        Same (obj (without integrityName document.members))
          (obj (without integrityName document'.members)) := by
    intro digest
    have hdigest : Same (str digest) (str digest) := by rw [Same]
    rw [same_setMember_iff _ _ _ _ _ hmembers hmembers',
      same_setMember_iff _ _ _ _ _ hintegrity hintegrity']
    exact ⟨fun hsame => ⟨hsame.1.2, hsame.2⟩, fun hsame => ⟨⟨hdigest, hsame.1⟩, hsame.2⟩⟩
  constructor
  · intro hsame digest
    exact (hset digest).mpr hsame
  · intro hall
    exact (hset []).mp (hall [])

/-- Canonical texts tell values up to the order of members and are read back as them, and the
    text a digest is taken of tells everything of a document but its digest. -/
theorem canonical_tells (v w : JsValue) (hv : IsJson v) (hw : IsJson w)
    (document document' : LedgerDocument) (hdocument : IsJson document.value)
    (hdocument' : IsJson document'.value) :
    (∃ canonical canonical', canonicalizeCollaborationJson v = .ok canonical ∧
      canonicalizeCollaborationJson w = .ok canonical' ∧ (canonical = canonical' ↔ Same v w) ∧
      ∃ parsed, parse canonical.toList = some parsed ∧ Same v parsed) ∧
    (canonicalizeIntegrityPayload document = canonicalizeIntegrityPayload document' ↔
      ∀ digest, Same (withDigest digest document) (withDigest digest document')) := by
  refine ⟨⟨_, _, canonicalize_ok v hv, canonicalize_ok w hw, ?_, normal v, ?_, same_normal v hv⟩,
    payload_eq_iff document document' hdocument hdocument'⟩
  · rw [← canonicalize_eq_iff v w hv hw, canonicalize_ok v hv, canonicalize_ok w hw,
      Except.ok.injEq]
  · rw [String.toList_ofList]
    exact parse_text (normal v) (normal_json v hv).1

/-! ## A surrogate on its own and two zeros -/

def zeroFirst : JsValue :=
  obj [(JsString.ofText "b", num .negativeZero), (JsString.ofText "a", arr [null, str [0xD800]])]

def zeroLast : JsValue :=
  obj [(JsString.ofText "a", arr [null, str [0xD800]]),
    (JsString.ofText "b", num (.finite Decimal.zero))]

def signedDocument (digest : JsString) : LedgerDocument :=
  { members := [(JsString.ofText "zero", zeroFirst),
      (integrityName, obj [(digestName, str digest)])]
    integrity := [(digestName, str digest)]
    digest := digest
    closed := by simp
    signed := by simp }

theorem zeros_tell :
    canonicalizeCollaborationJson zeroFirst =
        .ok "\x7b\"a\":[null,\"\\ud800\"],\"b\":0\x7d" ∧
      canonicalizeCollaborationJson zeroLast = canonicalizeCollaborationJson zeroFirst ∧
      canonicalizeIntegrityPayload (signedDocument [0xD800]) =
        canonicalizeIntegrityPayload (signedDocument []) := by
  have hfirst : IsJson zeroFirst := by
    simp only [zeroFirst, IsJson, MembersJson, ItemsJson, and_true]
    decide +kernel
  have hlast : IsJson zeroLast := by
    simp only [zeroLast, IsJson, MembersJson, ItemsJson, and_true, true_and]
    decide +kernel
  have hdocument : ∀ digest, IsJson (signedDocument digest).value := by
    intro digest
    have hnames : [JsString.ofText "zero", integrityName].Nodup := by decide +kernel
    simp [LedgerDocument.value, signedDocument, IsJson, MembersJson, hfirst] at hnames ⊢
    exact hnames
  have hzeros : Same zeroLast zeroFirst := by
    rw [zeroFirst, zeroLast, same_obj_iff]
    refine ⟨rfl, fun m hm => ?_⟩
    simp only [List.mem_cons, List.not_mem_nil, or_false] at hm
    rcases hm with rfl | rfl
    · refine ⟨arr [null, str [0xD800]], by simp, ?_⟩
      rw [Same, SameItems, SameItems, SameItems, Same, Same]
      exact ⟨trivial, rfl, trivial⟩
    · refine ⟨num .negativeZero, by simp, ?_⟩
      rw [Same]
      rfl
  obtain ⟨⟨canonical, canonical', hlast', hfirst', htells, -⟩, hpayload⟩ :=
    canonical_tells zeroLast zeroFirst hlast hfirst (signedDocument [0xD800]) (signedDocument [])
      (hdocument _) (hdocument _)
  refine ⟨by decide +kernel, ?_, hpayload.mpr (fun digest => ?_)⟩
  · rw [hlast', hfirst', htells.mpr hzeros]
  · have hset : ∀ digest', withDigest digest (signedDocument digest') =
        obj [(JsString.ofText "zero", zeroFirst), (integrityName, obj [(digestName, str digest)])] := by
      intro digest'
      have hother : JsString.ofText "zero" ≠ integrityName := by decide +kernel
      simp [withDigest, signedDocument, setMember, hother]
    rw [hset, hset]
    exact (normal_eq_iff _ _ (hdocument digest) (hdocument digest)).mp rfl

end Mdevolved.Collaboration
