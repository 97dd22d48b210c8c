/-
**Events on the wire.**

An event is sent as one flat JSON object: the members of its base are written over those of its
payload.  On the other side the base is read from the object, and what remains is the payload.
-/

import CodexMarathon.Adapter.Protocol
import Mathlib.Data.Finmap

namespace CodexMarathon

open Result

namespace Adapter

/-! ### Flat objects -/

/-- `serde_json::Map`, in which the order of the members does not matter. -/
abbrev Fields : Type := Finmap fun _ : String => Json

def uintValue (n : UInt64) : Json := .number (toString n.toNat)

def asString : Json → Option String
  | .string text => some text
  | _ => none

def asUint : Json → Option UInt64
  | .number text =>
    let n := Nat.ofDigitChars 10 text.toList 0
    if toString n = text ∧ n < UInt64.size then some (.ofNat n) else none
  | _ => none

def asOptionalString : Option Json → Option (Option String)
  | none | some .null => some none
  | some (.string text) => some (some text)
  | _ => none

structure WireBase where
  eventType : String
  occurredAt : UInt64
  runtimeId : String
  authGeneration : UInt64
  transitionId : Option String

/-- `RuntimeEvent`, with any payload; there is none if it is not an object. -/
structure WireEvent where
  base : WireBase
  payload : Option Fields

inductive WireError
  | notAnObject
  | base
  | invalid (message : String)

def EventType.all : List EventType :=
  [runtimeReady, rateLimitsSnapshot, rateLimitsUpdated, turnStarted, turnCompleted,
    safeBoundaryReached, authReloadStarted, authReloadSucceeded, authReloadFailed, identityChanged,
    recoveryParked, recoveryStarted, recoveryCompleted]

def EventType.ofText (text : String) : Option EventType := all.find? (·.text = text)

def baseKeys : List String :=
  ["event_type", "occurred_at", "runtime_id", "auth_generation", "transition_id"]

namespace WireBase

def validate (base : WireBase) : Except String Unit := do
  require (!isBlank base.eventType) "event_type is required"
  require (!isBlank base.runtimeId) "runtime_id is required"
  require (!((EventType.ofText base.eventType).any EventType.requiresTransitionId &&
    base.transitionId.all isBlank)) ("event " ++ base.eventType ++ " requires transition_id")

def members (base : WireBase) : List (String × Json) :=
  [("event_type", .string base.eventType), ("occurred_at", uintValue base.occurredAt),
    ("runtime_id", .string base.runtimeId), ("auth_generation", uintValue base.authGeneration)] ++
      base.transitionId.toList.map fun id => ("transition_id", .string id)

def ofFields (fields : Fields) : Option WireBase := do
  let eventType ← fields.lookup "event_type" >>= asString
  let occurredAt ← fields.lookup "occurred_at" >>= asUint
  let runtimeId ← fields.lookup "runtime_id" >>= asString
  let authGeneration ← fields.lookup "auth_generation" >>= asUint
  let transitionId ← asOptionalString (fields.lookup "transition_id")
  pure { eventType, occurredAt, runtimeId, authGeneration, transitionId }

end WireBase

namespace WireEvent

def validate (event : WireEvent) : Except String Unit := do
  event.base.validate
  let fields ← okOr event.payload "event payload must be an object"
  (((EventType.ofText event.base.eventType).map EventType.required).getD []).forM fun field =>
    require (fields.lookup field).isSome
      ("event " ++ event.base.eventType ++ " is missing " ++ field)

def serialize (event : WireEvent) : Except WireError Fields :=
  (okOr event.payload .notAnObject).map fun fields =>
    event.base.members.foldl (fun fields member => fields.insert member.1 member.2) fields

def deserialize (value : Option Fields) : Except WireError WireEvent := do
  let fields ← okOr value .notAnObject
  let base ← okOr (WireBase.ofFields fields) .base
  let event : WireEvent := ⟨base, some (baseKeys.foldl (fun fields key => fields.erase key) fields)⟩
  event.validate.mapError .invalid
  pure event

end WireEvent

/-- `event` is sent as `wire`: the payload is an object with the members of its type. -/
structure RuntimeEvent.SentAs (event : RuntimeEvent) (wire : WireEvent) : Prop where
  base : wire.base =
    { eventType := event.base.eventType.text
      occurredAt := event.base.occurredAt
      runtimeId := event.base.runtimeId
      authGeneration := event.base.authGeneration
      transitionId := event.base.transitionId }
  payload : ∃ fields, wire.payload = some fields ∧ ∀ key, key ∈ fields ↔ key ∈ event.payload.fields

section Members

variable {fields : Fields} {key : String}

theorem lookup_foldl_erase (keys : List String) (fields : Fields) (key : String) :
    (keys.foldl (fun fields key => fields.erase key) fields).lookup key =
      if key ∈ keys then none else fields.lookup key := by
  induction keys generalizing fields with
  | nil => simp
  | cons k keys ih =>
    rw [List.foldl_cons, ih]
    by_cases hkey : key = k
    · subst hkey
      simp [Finmap.lookup_erase]
    · simp [hkey, Finmap.lookup_erase_ne hkey]

theorem lookup_foldl_insert {members : List (String × Json)} (hnodup : (members.map Prod.fst).Nodup)
    (fields : Fields) (key : String) :
    (members.foldl (fun fields member => fields.insert member.1 member.2) fields).lookup key =
      (Json.field members key).or (fields.lookup key) := by
  induction members generalizing fields with
  | nil => rfl
  | cons member members ih =>
    obtain ⟨k, value⟩ := member
    obtain ⟨hnot, hnodup⟩ := List.nodup_cons.1 hnodup
    rw [List.foldl_cons, ih hnodup]
    by_cases hkey : k = key
    · subst hkey
      have hnone : Json.field members k = none := by
        rw [Json.field, List.find?_eq_none.2, Option.map_none]
        exact fun m hm => by simpa using fun h => hnot (List.mem_map.2 ⟨m, hm, h⟩)
      rw [hnone, Finmap.lookup_insert]
      simp [Json.field]
    · simp [Json.field, hkey, Finmap.lookup_insert_of_ne _ (Ne.symm hkey)]

theorem nodup_members (base : WireBase) : (base.members.map Prod.fst).Nodup := by
  cases h : base.transitionId <;> simp [WireBase.members, h]

variable {base : WireBase}

theorem field_members_of_not_mem (hkey : key ∉ baseKeys) : Json.field base.members key = none := by
  simp only [baseKeys, List.mem_cons, List.not_mem_nil, or_false, not_or, @eq_comm _ key] at hkey
  cases h : base.transitionId <;> simp [WireBase.members, h, Json.field, hkey]

theorem asUint_uintValue (n : UInt64) : asUint (uintValue n) = some n := by
  simp [asUint, uintValue, n.toNat_lt_size]

theorem eq_of_asUint {value : Json} {n : UInt64} (h : asUint value = some n) :
    value = uintValue n := by
  cases value with
  | number text =>
    simp only [asUint] at h
    split_ifs at h with hsize
    cases h
    rw [uintValue, UInt64.toNat_ofNat_of_lt' hsize.2, hsize.1]
  | _ => cases h

theorem eq_of_asString {value : Json} {text : String} (h : asString value = some text) :
    value = .string text := by
  cases value <;> cases h
  rfl

theorem ofFields_merged (base : WireBase) (hkeys : ∀ key ∈ baseKeys, fields.lookup key = none) :
    WireBase.ofFields
      (base.members.foldl (fun fields member => fields.insert member.1 member.2) fields) =
        some base := by
  have hnone := hkeys "transition_id" (by decide)
  simp only [WireBase.ofFields, lookup_foldl_insert (nodup_members base)]
  obtain ⟨eventType, occurredAt, runtimeId, authGeneration, transitionId⟩ := base
  cases transitionId <;>
    simp [WireBase.members, Json.field, asString, asUint_uintValue, asOptionalString, hnone]

def withoutNull (fields : Fields) : Fields :=
  match fields.lookup "transition_id" with
  | some .null => fields.erase "transition_id"
  | _ => fields

structure Reads (fields : Fields) (base : WireBase) : Prop where
  eventType : fields.lookup "event_type" = some (.string base.eventType)
  occurredAt : fields.lookup "occurred_at" = some (uintValue base.occurredAt)
  runtimeId : fields.lookup "runtime_id" = some (.string base.runtimeId)
  authGeneration : fields.lookup "auth_generation" = some (uintValue base.authGeneration)
  transitionId : (withoutNull fields).lookup "transition_id" = base.transitionId.map .string

theorem reads_of_ofFields (h : WireBase.ofFields fields = some base) : Reads fields base := by
  simp only [WireBase.ofFields, Option.bind_eq_bind, Option.bind_eq_some_iff] at h
  obtain ⟨eventType, ⟨v₁, h₁, e₁⟩, occurredAt, ⟨v₂, h₂, e₂⟩, runtimeId, ⟨v₃, h₃, e₃⟩, generation,
    ⟨v₄, h₄, e₄⟩, transitionId, h₅, ⟨⟩⟩ := h
  refine ⟨by rw [h₁, eq_of_asString e₁], by rw [h₂, eq_of_asUint e₂], by rw [h₃, eq_of_asString e₃],
    by rw [h₄, eq_of_asUint e₄], ?_⟩
  unfold withoutNull
  cases hid : fields.lookup "transition_id" with
  | none =>
    rw [hid] at h₅
    cases h₅
    exact hid
  | some value =>
    rw [hid] at h₅
    cases value <;> cases h₅
    · exact Finmap.lookup_erase _ _
    · exact hid

theorem lookup_withoutNull (hkey : key ≠ "transition_id") :
    (withoutNull fields).lookup key = fields.lookup key := by
  unfold withoutNull
  split
  · exact Finmap.lookup_erase_ne hkey
  · rfl

theorem merged_erased (h : Reads fields base) :
    base.members.foldl (fun fields member => fields.insert member.1 member.2)
      (baseKeys.foldl (fun fields key => fields.erase key) fields) = withoutNull fields := by
  refine Finmap.ext_lookup fun key => ?_
  rw [lookup_foldl_insert (nodup_members base), lookup_foldl_erase]
  by_cases hkey : key ∈ baseKeys
  · rw [if_pos hkey, Option.or_none]
    have hid := h.transitionId
    simp only [baseKeys, List.mem_cons, List.not_mem_nil, or_false] at hkey
    rcases hkey with rfl | rfl | rfl | rfl | rfl
    · simp [lookup_withoutNull, h.eventType, WireBase.members, Json.field]
    · simp [lookup_withoutNull, h.occurredAt, WireBase.members, Json.field]
    · simp [lookup_withoutNull, h.runtimeId, WireBase.members, Json.field]
    · simp [lookup_withoutNull, h.authGeneration, WireBase.members, Json.field]
    · rw [hid]
      cases hbase : base.transitionId <;> simp [WireBase.members, Json.field, hbase]
  · rw [if_neg hkey, field_members_of_not_mem hkey, Option.none_or, lookup_withoutNull]
    rintro rfl
    exact hkey (by decide)

end Members

theorem not_mem_optional {α : Type} {key name : String} (h : key ≠ name) (value : Option α) :
    key ∉ EventPayload.optional name value := by
  cases value <;> simp [EventPayload.optional, h]

theorem not_mem_fields_of_mem_baseKeys (payload : EventPayload) {key : String}
    (hkey : key ∈ baseKeys) : key ∉ payload.fields := by
  simp only [baseKeys, List.mem_cons, List.not_mem_nil, or_false] at hkey
  cases payload with
  | runtimeReady _ _ capabilities =>
    rcases hkey with rfl | rfl | rfl | rfl | rfl <;> cases capabilities <;> simp [EventPayload.fields]
  | _ => rcases hkey with rfl | rfl | rfl | rfl | rfl <;> simp [EventPayload.fields, not_mem_optional]

theorem ofText_text (eventType : EventType) : EventType.ofText eventType.text = some eventType := by
  cases eventType <;> decide

theorem RuntimeEvent.SentAs.validate_eq {event : RuntimeEvent} {wire : WireEvent}
    (h : event.SentAs wire) : wire.validate = event.validate := by
  obtain ⟨base, _⟩ := wire
  obtain ⟨rfl, fields, rfl, hmem⟩ := h
  have hrequire : event.requireField = fun field => require ((fields.lookup field).isSome = true)
      ("event " ++ event.base.eventType.text ++ " is missing " ++ field) :=
    funext fun field => if_congr ((hmem field).symm.trans Finmap.lookup_isSome.symm) rfl rfl
  simp only [WireEvent.validate, WireBase.validate, RuntimeEvent.validate, EventBase.validate,
    ofText_text, Option.any_some, Option.map_some, Option.getD_some, okOr, hrequire]
  rfl

/-- **Events are flattened without loss**, and those of the adapter may be. -/
theorem events_on_the_wire : (∀ (event : WireEvent) (fields : Fields), event.payload = some fields →
      event.validate = .ok () → (∀ key ∈ baseKeys, fields.lookup key = none) →
      ∃ value, event.serialize = .ok value ∧ WireEvent.deserialize (some value) = .ok event) ∧
    (∀ (event : RuntimeEvent) (wire : WireEvent), event.SentAs wire →
      wire.validate = event.validate ∧
      ∃ fields, wire.payload = some fields ∧ ∀ key ∈ baseKeys, fields.lookup key = none) ∧
    ∀ (fields : Fields) (event : WireEvent), WireEvent.deserialize (some fields) = .ok event →
      event.serialize = .ok (withoutNull fields) := by
  refine ⟨?_, ?_, ?_⟩
  · rintro ⟨base, _⟩ fields rfl hvalid hkeys
    refine ⟨_, rfl, ?_⟩
    have hfields : baseKeys.foldl (fun fields key => fields.erase key)
        (base.members.foldl (fun fields member => fields.insert member.1 member.2) fields) = fields := by
      refine Finmap.ext_lookup fun key => ?_
      rw [lookup_foldl_erase, lookup_foldl_insert (nodup_members base)]
      split_ifs with hkey
      · exact (hkeys key hkey).symm
      · rw [field_members_of_not_mem hkey, Option.none_or]
    refine bind_eq_ok.2 ⟨_, okOr_eq_ok.2 rfl, ?_⟩
    refine bind_eq_ok.2 ⟨base, okOr_eq_ok.2 (ofFields_merged base hkeys), ?_⟩
    simp only [hfields, hvalid]
    rfl
  · intro event wire hsent
    obtain ⟨fields, hpayload, hmem⟩ := hsent.payload
    refine ⟨hsent.validate_eq, fields, hpayload, fun key hkey => Finmap.lookup_eq_none.2 ?_⟩
    rw [hmem]
    exact not_mem_fields_of_mem_baseKeys event.payload hkey
  · intro fields event h
    obtain ⟨_, hfields, h⟩ := bind_eq_ok.1 h
    cases okOr_eq_ok.1 hfields
    obtain ⟨base, hbase, h⟩ := bind_eq_ok.1 h
    obtain ⟨⟨⟩, -, h⟩ := bind_eq_ok.1 h
    cases h
    exact congrArg Except.ok (merged_erased (reads_of_ofFields (okOr_eq_ok.1 hbase)))

def WireEvent.sample : WireEvent :=
  ⟨⟨"turn_started", 0, "r", 1, none⟩, some (Finmap.singleton "turn_id" (.string "t"))⟩

theorem events_on_the_wire_sample : ∃ value, WireEvent.sample.serialize = .ok value ∧
      WireEvent.deserialize (some value) = .ok .sample := by
  refine events_on_the_wire.1 _ _ rfl (by decide +kernel) fun key hkey => ?_
  refine Finmap.lookup_eq_none.2 fun hmem => ?_
  rw [Finmap.mem_singleton] at hmem
  subst hmem
  exact absurd hkey (by decide)

end Adapter

end CodexMarathon
