import Mdevolved.Lib.JsString

/-!
# Values of the Language and JSON

Values as JSON has them, and what it has no text for. The members of an object are listed in
some order, and no two of them have one name. What a text says of a member twice, it says the
second time.

Two values are the same if they have the same members in whatever order, where zero is one
number. Putting the members of each object in order tells this. A value is written with its
members as they are and read back as it was.

## Main definitions

* `JsValue`: A value.
* `JsValue.IsJson`: A value is one that JSON can hold.
* `JsValue.Same`: Two values are the same up to the order of members.
* `JsValue.normal`: A value with members in order.
* `JsValue.text`, `JsValue.parse`: Writing and reading.

## Theorems

* `JsValue.normal_eq_iff`: What being in order tells.
* `JsValue.parse_text`: A value that was written is read back.
-/

/-- A number of the language. -/
inductive JsNumber
  | finite (d : Decimal)
  | negativeZero
  | nonFinite
  deriving DecidableEq

/-- Zero is one number. -/
def JsNumber.unsigned : JsNumber → JsNumber
  | negativeZero => finite Decimal.zero
  | x => x

/-- A value. What is neither of these kinds is not told apart: nothing at all, functions, and
    objects that are made by other means. -/
inductive JsValue
  | null
  | bool (b : Bool)
  | num (x : JsNumber)
  | str (s : JsString)
  | arr (items : List JsValue)
  | obj (members : List (JsString × JsValue))
  | other

namespace JsValue

/-- Members in the order of their names, by code units. -/
def sortMembers {α : Type} (members : List (JsString × α)) : List (JsString × α) :=
  members.insertionSort (fun m n => m.1 ≤ n.1)

mutual

/-- JSON can hold a value. -/
def IsJson : JsValue → Prop
  | num x => x ≠ .nonFinite
  | arr items => ItemsJson items
  | obj members => (members.map Prod.fst).Nodup ∧ MembersJson members
  | other => False
  | _ => True

def ItemsJson : List JsValue → Prop
  | [] => True
  | x :: rest => IsJson x ∧ ItemsJson rest

def MembersJson : List (JsString × JsValue) → Prop
  | [] => True
  | (_, v) :: rest => IsJson v ∧ MembersJson rest

end

mutual

/-- Two values are the same up to the order of members. -/
def Same : JsValue → JsValue → Prop
  | null, null => True
  | bool a, bool b => a = b
  | num x, num y => x.unsigned = y.unsigned
  | str s, str t => s = t
  | arr items, arr items' => SameItems items items'
  | obj members, obj members' =>
      members.length = members'.length ∧ SameMembers members members'
  | _, _ => False

def SameItems : List JsValue → List JsValue → Prop
  | [], [] => True
  | x :: rest, y :: rest' => Same x y ∧ SameItems rest rest'
  | _, _ => False

/-- Each member is there under its name. -/
def SameMembers : List (JsString × JsValue) → List (JsString × JsValue) → Prop
  | [], _ => True
  | (k, v) :: rest, members => (∃ w, (k, w) ∈ members ∧ Same v w) ∧ SameMembers rest members

end

mutual

/-- A value with the members of its objects in order. -/
def normal : JsValue → JsValue
  | num x => num x.unsigned
  | arr items => arr (normalItems items)
  | obj members => obj (sortMembers (normalMembers members))
  | v => v

def normalItems : List JsValue → List JsValue
  | [] => []
  | x :: rest => normal x :: normalItems rest

def normalMembers : List (JsString × JsValue) → List (JsString × JsValue)
  | [] => []
  | (k, v) :: rest => (k, normal v) :: normalMembers rest

end

/-! ## Writing and reading -/

/-- A negative zero has its sign, which `JSON.stringify` leaves out. -/
def numberText : JsNumber → List Char
  | .finite d => d.toChars
  | .negativeZero => ['-', '0']
  | .nonFinite => []

mutual

/-- The text of a value, with the members of its objects as they are. -/
def text : JsValue → List Char
  | null => ['n', 'u', 'l', 'l']
  | bool true => ['t', 'r', 'u', 'e']
  | bool false => ['f', 'a', 'l', 's', 'e']
  | num x => numberText x
  | str s => s.quote
  | arr items => '[' :: (itemsText items ++ [']'])
  | obj members => '{' :: (membersText members ++ ['}'])
  | other => []

def itemsText : List JsValue → List Char
  | [] => []
  | [x] => text x
  | x :: y :: rest => text x ++ ',' :: itemsText (y :: rest)

def membersText : List (JsString × JsValue) → List Char
  | [] => []
  | [(k, v)] => k.quote ++ ':' :: text v
  | (k, v) :: y :: rest => k.quote ++ ':' :: (text v ++ ',' :: membersText (y :: rest))

end

/-- A member is set, in its place where there is one of its name. -/
def setMember (members : List (JsString × JsValue)) (m : JsString × JsValue) :
    List (JsString × JsValue) :=
  if m.1 ∈ members.map Prod.fst then
    members.map (fun n => if n.1 = m.1 then m else n)
  else members ++ [m]

def ofMembers (members : List (JsString × JsValue)) : JsValue :=
  obj (members.foldl setMember [])

/-- The number at the front of a text. The sign of a zero is kept. -/
def parseNumber (cs : List Char) : Option (JsNumber × List Char) :=
  (Decimal.parseNumber cs).map (fun p =>
    (if p.1 = Decimal.zero ∧ cs.head? = some '-' then .negativeZero else .finite p.1, p.2))

/-- The rest of a literal name. -/
def parseWord (word : List Char) (v : JsValue) (cs : List Char) : Option (JsValue × List Char) :=
  if word <+: cs then some (v, cs.drop word.length) else none

mutual

/-- The value at the front of a text, and what follows it. -/
def parseValue : Nat → List Char → Option (JsValue × List Char)
  | 0, _ => none
  | fuel + 1, cs =>
      match Json.skipWs cs with
      | [] => none
      | c :: rest =>
          if c = 'n' then parseWord ['u', 'l', 'l'] null rest
          else if c = 't' then parseWord ['r', 'u', 'e'] (bool true) rest
          else if c = 'f' then parseWord ['a', 'l', 's', 'e'] (bool false) rest
          else if c = '"' then (JsString.parseString rest).map (fun p => (str p.1, p.2))
          else if c = '[' then
            if (Json.skipWs rest).head? = some ']' then some (arr [], (Json.skipWs rest).drop 1)
            else (parseItems fuel rest).map (fun p => (arr p.1, p.2))
          else if c = '{' then
            if (Json.skipWs rest).head? = some '}' then some (obj [], (Json.skipWs rest).drop 1)
            else (parseMembers fuel rest).map (fun p => (ofMembers p.1, p.2))
          else (parseNumber (c :: rest)).map (fun p => (num p.1, p.2))

/-- Array items up to the closing bracket. -/
def parseItems : Nat → List Char → Option (List JsValue × List Char)
  | 0, _ => none
  | fuel + 1, cs =>
      match parseValue fuel cs with
      | none => none
      | some (x, rest) =>
          match Json.skipWs rest with
          | [] => none
          | c :: rest' =>
              if c = ',' then (parseItems fuel rest').map (fun p => (x :: p.1, p.2))
              else if c = ']' then some ([x], rest')
              else none

/-- Object members up to the closing brace. -/
def parseMembers : Nat → List Char → Option (List (JsString × JsValue) × List Char)
  | 0, _ => none
  | fuel + 1, cs =>
      match Json.skipWs cs with
      | [] => none
      | c :: rest =>
          if c = '"' then
            match JsString.parseString rest with
            | none => none
            | some (k, rest) =>
                match Json.skipWs rest with
                | [] => none
                | c :: rest =>
                    if c = ':' then
                      match parseValue fuel rest with
                      | none => none
                      | some (v, rest) =>
                          match Json.skipWs rest with
                          | [] => none
                          | c :: rest =>
                              if c = ',' then
                                (parseMembers fuel rest).map (fun p => ((k, v) :: p.1, p.2))
                              else if c = '}' then some ([(k, v)], rest)
                              else none
                    else none
          else none

end

/-- `JSON.parse`, with no value where it throws -/
def parse (cs : List Char) : Option JsValue :=
  match parseValue (2 * cs.length + 1) cs with
  | none => none
  | some (v, rest) => if Json.skipWs rest = [] then some v else none

/-! ## Lists of values -/

theorem itemsJson_iff (items : List JsValue) : ItemsJson items ↔ ∀ x ∈ items, IsJson x := by
  induction items with
  | nil => simp [ItemsJson]
  | cons x rest ih => simp [ItemsJson, ih]

section

variable (members : List (JsString × JsValue))

theorem membersJson_iff :
    MembersJson members ↔ ∀ m ∈ members, IsJson m.2 := by
  induction members with
  | nil => simp [MembersJson]
  | cons m rest ih => simp [MembersJson, ih]

theorem sameMembers_iff (members members' : List (JsString × JsValue)) :
    SameMembers members members' ↔
      ∀ m ∈ members, ∃ w, (m.1, w) ∈ members' ∧ Same m.2 w := by
  induction members with
  | nil => simp [SameMembers]
  | cons m rest ih => simp [SameMembers, ih]

theorem normalMembers_eq :
    normalMembers members = members.map (fun m => (m.1, normal m.2)) := by
  induction members with
  | nil => rw [normalMembers, List.map_nil]
  | cons m rest ih => rw [normalMembers, ih, List.map_cons]

theorem normalMembers_names :
    (normalMembers members).map Prod.fst = members.map Prod.fst := by
  rw [normalMembers_eq, List.map_map]
  rfl

end

/-! ## Members in order -/

section Sorting

variable {α : Type}

section

variable (members : List (JsString × α))

theorem sortMembers_perm : (sortMembers members).Perm members :=
  List.perm_insertionSort _ members

theorem sortMembers_sorted :
    (sortMembers members).Pairwise (fun m n => m.1 ≤ n.1) := by
  have htotal : Std.Total (fun m n : JsString × α => m.1 ≤ n.1) :=
    ⟨fun m n => le_total m.1 n.1⟩
  have htrans : IsTrans (JsString × α) (fun m n => m.1 ≤ n.1) :=
    ⟨fun m n o => le_trans⟩
  exact List.pairwise_insertionSort _ members

/-- Two members of one name are one, where names are told apart. -/
theorem member_inj (hnodup : (members.map Prod.fst).Nodup)
    (m n : JsString × α) (hm : m ∈ members) (hn : n ∈ members) (h : m.1 = n.1) : m = n :=
  List.inj_on_of_nodup_map hnodup hm hn h

end

/-- Being in order tells the members. -/
theorem sortMembers_eq_iff (members members' : List (JsString × α))
    (hnodup : (members.map Prod.fst).Nodup) :
    sortMembers members = sortMembers members' ↔ members.Perm members' := by
  constructor
  · intro h
    exact (sortMembers_perm members).symm.trans (h ▸ sortMembers_perm members')
  · intro h
    have hperm : (sortMembers members).Perm (sortMembers members') :=
      ((sortMembers_perm members).trans h).trans (sortMembers_perm members').symm
    refine hperm.eq_of_pairwise (fun m n hm hn hle hge => ?_) (sortMembers_sorted members)
      (sortMembers_sorted members')
    have hm' : m ∈ members := (sortMembers_perm members).subset hm
    have hn' : n ∈ members := h.symm.subset ((sortMembers_perm members').subset hn)
    exact member_inj members hnodup m n hm' hn' (le_antisymm hle hge)

/-- Where names are told apart, members are the same in some order if there are as many of them
    and each is among the others. -/
theorem members_perm_iff (members members' : List (JsString × α))
    (hnodup : (members.map Prod.fst).Nodup) :
    members.Perm members' ↔
      members.length = members'.length ∧ ∀ m ∈ members, m ∈ members' := by
  constructor
  · intro h
    exact ⟨h.length_eq, fun m hm => h.subset hm⟩
  · rintro ⟨hlength, hall⟩
    have hsub : members.Subperm members' := (hnodup.of_map _).subperm hall
    exact hsub.perm_of_length_le (by omega)

end Sorting

/-! ## What being in order tells -/

mutual

/-- Values are the same exactly if they are one in order. The cases follow the first value. -/
theorem normal_eq_iff : (v w : JsValue) → IsJson v → IsJson w → (normal v = normal w ↔ Same v w)
  | null, w, _, _ => by cases w <;> simp [normal, Same]
  | bool b, w, _, _ => by cases w <;> simp [normal, Same]
  | num x, w, _, _ => by cases w <;> simp [normal, Same]
  | str s, w, _, _ => by cases w <;> simp [normal, Same]
  | other, w, hv, _ => by
      rw [IsJson] at hv
      exact hv.elim
  | arr items, w, hv, hw => by
      cases w with
      | arr items' =>
          rw [IsJson] at hv hw
          rw [normal, normal, Same, arr.injEq]
          exact normalItems_eq_iff items items' hv hw
      | _ => simp [normal, Same]
  | obj members, w, hv, hw => by
      cases w with
      | obj members' =>
          rw [IsJson] at hv hw
          have hnodup : ((normalMembers members).map Prod.fst).Nodup := by
            rw [normalMembers_names]
            exact hv.1
          have hlength : ∀ ms : List (JsString × JsValue), (normalMembers ms).length = ms.length := by
            intro ms
            rw [normalMembers_eq, List.length_map]
          rw [normal, normal, Same, obj.injEq, sortMembers_eq_iff _ _ hnodup,
            members_perm_iff _ _ hnodup, hlength, hlength,
            normalMembers_subset_iff members members' hv.2 hw.2]
      | _ => simp [normal, Same]

theorem normalItems_eq_iff : (items items' : List JsValue) → ItemsJson items → ItemsJson items' →
    (normalItems items = normalItems items' ↔ SameItems items items')
  | [], items', _, _ => by cases items' <;> simp [normalItems, SameItems]
  | x :: rest, items', hv, hw => by
      cases items' with
      | nil => simp [normalItems, SameItems]
      | cons y rest' =>
          rw [ItemsJson] at hv hw
          rw [normalItems, normalItems, SameItems, List.cons.injEq,
            normal_eq_iff x y hv.1 hw.1, normalItems_eq_iff rest rest' hv.2 hw.2]

theorem normalMembers_subset_iff : (members members' : List (JsString × JsValue)) →
    MembersJson members → MembersJson members' →
    ((∀ m ∈ normalMembers members, m ∈ normalMembers members') ↔ SameMembers members members')
  | [], members', _, _ => by simp [normalMembers, SameMembers]
  | (k, v) :: rest, members', hv, hw => by
      rw [MembersJson] at hv
      have hmember : (k, normal v) ∈ normalMembers members' ↔
          ∃ w, (k, w) ∈ members' ∧ Same v w := by
        rw [normalMembers_eq, List.mem_map]
        constructor
        · rintro ⟨⟨k', w⟩, hmem, heq⟩
          rw [Prod.mk.injEq] at heq
          have hjson := (membersJson_iff members').mp hw _ hmem
          exact ⟨w, heq.1 ▸ hmem, (normal_eq_iff v w hv.1 hjson).mp heq.2.symm⟩
        · rintro ⟨w, hmem, hsame⟩
          have hjson := (membersJson_iff members').mp hw _ hmem
          exact ⟨(k, w), hmem, by rw [(normal_eq_iff v w hv.1 hjson).mpr hsame]⟩
      rw [normalMembers, SameMembers, ← hmember,
        ← normalMembers_subset_iff rest members' hv.2 hw]
      simp

end

mutual

/-- What is in order stays as it is, and JSON can hold it. -/
theorem normal_json : (v : JsValue) → IsJson v → IsJson (normal v) ∧ normal (normal v) = normal v
  | null, _ => by simp [normal, IsJson]
  | bool b, _ => by simp [normal, IsJson]
  | num x, h => by
      rw [IsJson] at h
      cases x <;> simp_all [normal, IsJson, JsNumber.unsigned]
  | str s, _ => by simp [normal, IsJson]
  | other, h => by
      rw [IsJson] at h
      exact h.elim
  | arr items, h => by
      rw [IsJson] at h
      have hitems := normalItems_json items h
      rw [normal, normal, IsJson]
      exact ⟨hitems.1, by rw [hitems.2]⟩
  | obj members, h => by
      rw [IsJson] at h
      have hmembers := normalMembers_json members h.2
      have hperm := sortMembers_perm (normalMembers members)
      have hnodup : ((normalMembers members).map Prod.fst).Nodup := by
        rw [normalMembers_names]
        exact h.1
      have hsorted := sortMembers_sorted (normalMembers members)
      rw [normal, normal, IsJson, membersJson_iff]
      refine ⟨⟨(hperm.map Prod.fst).nodup_iff.mpr hnodup, ?_⟩, ?_⟩
      · intro m hm
        exact (membersJson_iff _).mp hmembers.1 m (hperm.subset hm)
      · have hsame : normalMembers (sortMembers (normalMembers members)) =
            sortMembers (normalMembers members) := by
          rw [normalMembers_eq]
          refine (List.map_congr_left (fun m hm => ?_)).trans (List.map_id' _)
          have hm' := hperm.subset hm
          rw [← hmembers.2, normalMembers_eq, List.mem_map] at hm'
          obtain ⟨n, hn, rfl⟩ := hm'
          obtain ⟨o, ho, rfl⟩ := List.mem_map.mp (normalMembers_eq members ▸ hn)
          have htwice := (normalMembers_json members h.2).2
          rw [normalMembers_eq, normalMembers_eq, List.map_map] at htwice
          have hthis := (List.map_inj_left.mp htwice) o ho
          simp only [Function.comp_apply, Prod.mk.injEq, true_and] at hthis
          simp only [hthis]
        rw [hsame, sortMembers, hsorted.insertionSort_eq]

theorem normalItems_json : (items : List JsValue) → ItemsJson items →
    ItemsJson (normalItems items) ∧ normalItems (normalItems items) = normalItems items
  | [], _ => by simp [normalItems, ItemsJson]
  | x :: rest, h => by
      rw [ItemsJson] at h
      have hx := normal_json x h.1
      have hrest := normalItems_json rest h.2
      rw [normalItems, normalItems, ItemsJson]
      exact ⟨⟨hx.1, hrest.1⟩, by rw [hx.2, hrest.2]⟩

theorem normalMembers_json : (members : List (JsString × JsValue)) → MembersJson members →
    MembersJson (normalMembers members) ∧
      normalMembers (normalMembers members) = normalMembers members
  | [], _ => by simp [normalMembers, MembersJson]
  | (k, v) :: rest, h => by
      rw [MembersJson] at h
      have hv := normal_json v h.1
      have hrest := normalMembers_json rest h.2
      rw [normalMembers, normalMembers, MembersJson]
      exact ⟨⟨hv.1, hrest.1⟩, by rw [hv.2, hrest.2]⟩

end

/-- A value is the same in order. -/
theorem same_normal (v : JsValue) (h : IsJson v) : Same v (normal v) := by
  have hnormal := normal_json v h
  exact (normal_eq_iff v (normal v) h hnormal.1).mp hnormal.2.symm

/-! ## Reading what was written -/

theorem parseNumber_text (x : JsNumber) (hx : x ≠ .nonFinite) (rest : List Char)
    (hrest : Decimal.Ends rest) : parseNumber (numberText x ++ rest) = some (x, rest) := by
  cases x with
  | nonFinite => exact absurd rfl hx
  | negativeZero =>
      have hread := Decimal.parseUnsigned_parts true ('0' :: rest) rest rest rest [0] [] 0 rfl
        (Decimal.parseFraction_none rest (fun c hc => (hrest c hc).2.1))
        (Decimal.parseExponent_none rest hrest)
      have hzero : Decimal.parseNumber ('-' :: '0' :: rest) = some (Decimal.zero, rest) := by
        rw [Decimal.parseNumber, hread]
        exact congrArg (fun y => some (y, rest)) (Decimal.make_zeros true 1 _)
      change parseNumber ('-' :: '0' :: rest) = _
      rw [parseNumber, hzero]
      simp
  | finite d =>
      rw [numberText, parseNumber, Decimal.parseNumber_toChars d rest hrest, Option.map_some]
      -- Only a number below zero is written with a sign.
      have hsigned : ¬ (d = Decimal.zero ∧ (d.toChars ++ rest).head? = some '-') := by
        rintro ⟨rfl, hhead⟩
        have hzero : Decimal.zero.toChars = ['0'] := by decide
        rw [hzero] at hhead
        simp at hhead
      rw [if_neg hsigned]

/-- A number begins with a sign or a digit. -/
theorem numberText_head (x : JsNumber) (hx : x ≠ .nonFinite) :
    ∃ c cs, numberText x = c :: cs ∧ (c = '-' ∨ ∃ d, c = Decimal.digitChar d) := by
  cases x with
  | nonFinite => exact absurd rfl hx
  | negativeZero => exact ⟨'-', ['0'], rfl, Or.inl rfl⟩
  | finite d => exact Decimal.toChars_head d

/-- A value begins with a character that is no whitespace and closes no list. -/
theorem text_head (v : JsValue) (h : IsJson v) :
    ∃ c cs, text v = c :: cs ∧ Json.isWhitespace c = false ∧ c ≠ ']' := by
  cases v with
  | null => exact ⟨'n', _, by rw [text], by decide, by decide⟩
  | bool b =>
      cases b with
      | true => exact ⟨'t', _, by rw [text], by decide, by decide⟩
      | false => exact ⟨'f', _, by rw [text], by decide, by decide⟩
  | num x =>
      rw [IsJson] at h
      obtain ⟨c, cs, hcs, hc⟩ := numberText_head x h
      exact ⟨c, cs, by rw [text, hcs], (Json.number_plain hc).2.2.2.2.2.2⟩
  | str s => exact ⟨'"', _, by rw [text, JsString.quote], by decide, by decide⟩
  | arr items => exact ⟨'[', _, by rw [text], by decide, by decide⟩
  | obj members => exact ⟨'{', _, by rw [text], by decide, by decide⟩
  | other =>
      rw [IsJson] at h
      exact h.elim

theorem parseValue_num (x : JsNumber) (hx : x ≠ .nonFinite) (rest : List Char) (fuel : Nat)
    (hrest : Decimal.Ends rest) :
    parseValue (fuel + 1) (numberText x ++ rest) = some (num x, rest) := by
  have hread := parseNumber_text x hx rest hrest
  obtain ⟨c, cs, hcs, hc⟩ := numberText_head x hx
  obtain ⟨hn, ht, hf, hq, ha, ho, hws, -⟩ := Json.number_plain hc
  rw [hcs, List.cons_append] at hread ⊢
  rw [parseValue, Json.skipWs_cons c _ hws]
  simp only [if_neg hn, if_neg ht, if_neg hf, if_neg hq, if_neg ha, if_neg ho, hread,
    Option.map_some]

theorem itemsText_head (x : JsValue) (xs : List JsValue) (hx : IsJson x) (rest : List Char) :
    Json.skipWs (itemsText (x :: xs) ++ rest) = itemsText (x :: xs) ++ rest ∧
      (itemsText (x :: xs) ++ rest).head? ≠ some ']' := by
  obtain ⟨c, cs, hcs, hws, hclose⟩ := text_head x hx
  have hfront : ∃ tail, itemsText (x :: xs) ++ rest = c :: tail := by
    cases xs with
    | nil => exact ⟨_, by rw [itemsText, hcs, List.cons_append]⟩
    | cons y ys => exact ⟨_, by rw [itemsText, hcs, List.cons_append, List.cons_append]⟩
  obtain ⟨tail, htail⟩ := hfront
  rw [htail, Json.skipWs_cons c tail hws, List.head?_cons]
  exact ⟨rfl, fun h => hclose (Option.some.inj h)⟩

theorem membersText_head (m : JsString × JsValue) (ms : List (JsString × JsValue))
    (rest : List Char) :
    Json.skipWs (membersText (m :: ms) ++ rest) = membersText (m :: ms) ++ rest ∧
      (membersText (m :: ms) ++ rest).head? ≠ some '}' := by
  have hfront : ∃ tail, membersText (m :: ms) ++ rest = '"' :: tail := by
    cases ms with
    | nil => exact ⟨_, by rw [membersText, JsString.quote, List.cons_append, List.cons_append]⟩
    | cons y ys =>
        exact ⟨_, by rw [membersText, JsString.quote, List.cons_append, List.cons_append]⟩
  obtain ⟨tail, htail⟩ := hfront
  rw [htail, Json.skipWs_cons _ tail (by decide), List.head?_cons]
  exact ⟨rfl, by decide⟩

/-- One step of reading items. -/
theorem parseItems_step (fuel : Nat) (x : JsValue) (c : Char) (rest : List Char)
    (hws : Json.isWhitespace c = false)
    (hx : parseValue fuel (text x ++ c :: rest) = some (x, c :: rest)) :
    parseItems (fuel + 1) (text x ++ c :: rest) =
      if c = ',' then (parseItems fuel rest).map (fun p => (x :: p.1, p.2))
      else if c = ']' then some ([x], rest)
      else none := by
  rw [parseItems]
  simp only [hx]
  rw [Json.skipWs_cons c rest hws]

theorem parseMembers_step (fuel : Nat) (k : JsString) (v : JsValue) (c : Char) (rest : List Char)
    (hws : Json.isWhitespace c = false)
    (hv : parseValue fuel (text v ++ c :: rest) = some (v, c :: rest)) :
    parseMembers (fuel + 1) (k.quote ++ ':' :: (text v ++ c :: rest)) =
      if c = ',' then (parseMembers fuel rest).map (fun p => ((k, v) :: p.1, p.2))
      else if c = '}' then some ([(k, v)], rest)
      else none := by
  have hkey := JsString.parseString_quote k (':' :: (text v ++ c :: rest))
  rw [JsString.quote, List.cons_append, List.append_assoc, List.singleton_append, parseMembers,
    Json.skipWs_cons _ _ (by decide)]
  simp only [if_true, hkey]
  rw [Json.skipWs_cons _ _ (by decide)]
  simp only [if_true, hv]
  rw [Json.skipWs_cons c rest hws]

/-- Members whose names are told apart are set one after the other. -/
theorem foldl_setMember (members front : List (JsString × JsValue))
    (hnodup : ((front ++ members).map Prod.fst).Nodup) :
    members.foldl setMember front = front ++ members := by
  induction members generalizing front with
  | nil => rw [List.foldl_nil, List.append_nil]
  | cons m rest ih =>
      have hnew : m.1 ∉ front.map Prod.fst := by
        rw [List.map_append, List.map_cons, List.nodup_append] at hnodup
        intro hmem
        exact hnodup.2.2 _ hmem _ List.mem_cons_self rfl
      have hset : setMember front m = front ++ [m] := if_neg hnew
      rw [List.append_cons] at hnodup ⊢
      rw [List.foldl_cons, hset]
      exact ih _ hnodup

/-- With fuel for twice their texts, values, items and members are read back. The induction is on
    the fuel, which bounds all three at once. -/
theorem parse_fuel (fuel : Nat) :
    (∀ v rest, IsJson v → 2 * (text v).length ≤ fuel → Decimal.Ends rest →
      parseValue fuel (text v ++ rest) = some (v, rest)) ∧
    (∀ x xs rest, ItemsJson (x :: xs) → 2 * (itemsText (x :: xs)).length < fuel →
      parseItems fuel (itemsText (x :: xs) ++ ']' :: rest) = some (x :: xs, rest)) ∧
    (∀ m ms rest, MembersJson (m :: ms) → 2 * (membersText (m :: ms)).length < fuel →
      parseMembers fuel (membersText (m :: ms) ++ '}' :: rest) = some (m :: ms, rest)) := by
  have hends : ∀ (c : Char) (rest : List Char), c = ',' ∨ c = ']' ∨ c = '}' →
      Decimal.Ends (c :: rest) := Json.ends_punctuation
  induction fuel with
  | zero =>
      refine ⟨fun v rest hv hfuel => ?_, fun x xs rest _ hfuel => ?_, fun m ms rest _ hfuel => ?_⟩
      · obtain ⟨c, cs, hcs, -⟩ := text_head v hv
        rw [hcs, List.length_cons] at hfuel
        omega
      · omega
      · omega
  | succ fuel ih =>
      obtain ⟨ihValue, ihItems, ihMembers⟩ := ih
      refine ⟨fun v rest hv hfuel hrest => ?_, fun x xs rest hxs hfuel => ?_,
        fun m ms rest hms hfuel => ?_⟩
      · cases v with
        | null => rfl
        | bool b => cases b <;> rfl
        | other =>
            rw [IsJson] at hv
            exact hv.elim
        | num x =>
            rw [IsJson] at hv
            rw [text]
            exact parseValue_num x hv rest fuel hrest
        | str s =>
            have hread := JsString.parseString_quote s rest
            rw [text, JsString.quote, List.cons_append, List.append_assoc, List.singleton_append,
              parseValue, Json.skipWs_cons _ _ (by decide)]
            simp only [Char.reduceEq, if_false, if_true, hread, Option.map_some]
        | arr items =>
            rw [IsJson] at hv
            rw [text, List.length_cons, List.length_append, List.length_singleton] at hfuel
            rw [text, List.cons_append, List.append_assoc, List.singleton_append, parseValue,
              Json.skipWs_cons _ _ (by decide)]
            simp only [Char.reduceEq, if_false, if_true]
            cases items with
            | nil =>
                rw [itemsText, List.nil_append, Json.skipWs_cons _ _ (by decide), List.head?_cons,
                  if_pos rfl]
                rfl
            | cons x xs =>
                have hx := hv
                rw [ItemsJson] at hx
                have hhead := itemsText_head x xs hx.1 (']' :: rest)
                rw [hhead.1, if_neg hhead.2, ihItems x xs rest hv (by omega), Option.map_some]
        | obj members =>
            rw [IsJson] at hv
            rw [text, List.length_cons, List.length_append, List.length_singleton] at hfuel
            rw [text, List.cons_append, List.append_assoc, List.singleton_append, parseValue,
              Json.skipWs_cons _ _ (by decide)]
            simp only [Char.reduceEq, if_false, if_true]
            cases members with
            | nil =>
                rw [membersText, List.nil_append, Json.skipWs_cons _ _ (by decide),
                  List.head?_cons, if_pos rfl]
                rfl
            | cons m ms =>
                have hhead := membersText_head m ms ('}' :: rest)
                rw [hhead.1, if_neg hhead.2, ihMembers m ms rest hv.2 (by omega), Option.map_some,
                  ofMembers, foldl_setMember _ [] (by rw [List.nil_append]; exact hv.1),
                  List.nil_append]
      · rw [ItemsJson] at hxs
        cases xs with
        | nil =>
            rw [itemsText] at hfuel ⊢
            rw [parseItems_step fuel x ']' rest (by decide)
              (ihValue x _ hxs.1 (by omega) (hends _ _ (by simp)))]
            simp only [Char.reduceEq, if_false, if_true]
        | cons y ys =>
            rw [itemsText, List.length_append, List.length_cons] at hfuel
            rw [itemsText, List.append_assoc, List.cons_append, parseItems_step fuel x ',' _
              (by decide) (ihValue x _ hxs.1 (by omega) (hends _ _ (by simp))), if_pos rfl,
              ihItems y ys rest hxs.2 (by omega), Option.map_some]
      · obtain ⟨k, v⟩ := m
        rw [MembersJson] at hms
        cases ms with
        | nil =>
            rw [membersText, List.length_append, List.length_cons] at hfuel
            rw [membersText, List.append_assoc, List.cons_append, parseMembers_step fuel k v '}'
              rest (by decide) (ihValue v _ hms.1 (by omega) (hends _ _ (by simp)))]
            simp only [Char.reduceEq, if_false, if_true]
        | cons m ms =>
            rw [membersText, List.length_append, List.length_cons, List.length_append,
              List.length_cons] at hfuel
            rw [membersText, List.append_assoc, List.cons_append, List.append_assoc,
              List.cons_append, parseMembers_step fuel k v ',' _ (by decide)
                (ihValue v _ hms.1 (by omega) (hends _ _ (by simp))), if_pos rfl,
              ihMembers m ms rest hms.2 (by omega), Option.map_some]

/-- A value that was written is read back. -/
theorem parse_text (v : JsValue) (h : IsJson v) : parse (text v) = some v := by
  have hread := (parse_fuel (2 * (text v).length + 1)).1 v [] h (by omega) Decimal.ends_nil
  rw [List.append_nil] at hread
  rw [parse, hread]
  exact if_pos rfl

end JsValue
