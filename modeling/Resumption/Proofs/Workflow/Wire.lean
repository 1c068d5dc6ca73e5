import Resumption.Proofs.Json.Agreement
import Resumption.Workflow.Wire

/-!
# What is written is read back

The writers and readers of responses, callbacks and workflows agree (`Json.Agree`) on the values
whose lifetimes are whole milliseconds of one word and whose payloads are what a program can hold
(`Json.IsValue`), because those of their parts do (`Workflow.agree`).

Whatever form a reader has taken, it has settled there: the value that it gave is written in one
form, which is read as that value again (`encodings_round_trip`).
-/

namespace Resumption

/-! ## Records -/

theorem Quorum.agree : Json.Agree toJson ofJson? fun _ => True where
  back q _ := ofName?_name q
  fit _ _ _ := trivial

theorem Stage.agree : Json.Agree toJson ofJson? fun _ => True where
  back s _ := ofName?_name s
  fit _ _ _ := trivial

namespace Response

/-- The payload of a success is a value. -/
def OutcomeIsValue (outcome : Except String Json) : Prop :=
  ∀ payload, outcome = .ok payload → payload.IsValue

/-- The payload is a value and the lifetime is whole. -/
def IsWritable (r : Response) : Prop :=
  OutcomeIsValue r.outcome ∧ ∀ d, r.lifetime = some d → d.IsWhole

theorem agree_outcome : Json.Agree outcomeToJson outcomeOfJson? OutcomeIsValue where
  back outcome h := by
    cases outcome with
    | ok payload =>
      simp only [outcomeToJson, outcomeOfJson?, Json.any?_of_isValue (h payload rfl)]
      rfl
    | error reason => rfl
  fit j outcome h payload eq := by
    subst eq
    unfold outcomeOfJson? at h
    split at h
    · obtain ⟨k, read, eq⟩ := Option.map_eq_some_iff.1 h
      cases eq
      exact Json.isValue_any? read
    · cases h
    · cases h

theorem agree_lifetime : Json.Agree (Json.ofOption Json.ofDuration) (Json.nullable Json.duration?)
    fun o => ∀ d, o = some d → d.IsWhole :=
  Json.agree_duration.nullable fun _ h => by cases h

theorem agree : Json.Agree toJson ofJson? IsWritable where
  back r h := by
    have fields : r.toJson.fields? fieldNames = some ⟨false, _⟩ :=
      Json.fields?_object (by simp [fieldNames]) (by simp)
    unfold ofJson?
    simp [fields, Fields.required, Fields.defaulted, Fields.value?, List.lookup_cons, Json.string?,
      agree_outcome.back _ h.1, Json.agree_instant.back r.time trivial, agree_lifetime.back _ h.2]
  fit j r h := by
    unfold ofJson? at h
    simp only [Option.bind_eq_bind, Option.bind_eq_some_iff, Option.pure_def,
      Option.some.injEq] at h
    obtain ⟨f, _, correlation, _, outcome, ho, time, _, lifetime, hl, rfl⟩ := h
    refine ⟨Fields.required_fit agree_outcome ho, ?_⟩
    rcases Fields.defaulted_eq_some hl with rfl | ⟨j, hl⟩
    · intro d hd
      cases hd
    · exact agree_lifetime.fit _ _ hl

end Response

namespace Callback

theorem agree_deadline :
    Json.Agree (Json.ofOption Json.ofInstant) (Json.nullable Json.instant?) fun o =>
      ∀ t, o = some t → True :=
  Json.agree_instant.nullable fun _ h => by cases h

theorem agree : Json.Agree toJson ofJson? fun _ => True where
  back c _ := by
    have fields : c.toJson.fields? fieldNames = some ⟨false, _⟩ :=
      Json.fields?_object (by simp [fieldNames]) (by simp)
    unfold ofJson?
    simp [fields, Fields.required, Fields.optional, Fields.value?, List.lookup_cons,
      Json.agree_uuid.back c.instanceId trivial, Quorum.agree.back c.quorum trivial,
      agree_deadline.back c.deadline fun _ _ => trivial,
      Json.agree_string.listOf.back c.correlations fun _ _ => trivial]
  fit _ _ _ := trivial

end Callback

namespace Workflow

/-- The payload is a value, and so are the payloads of the responses, whose lifetimes are whole. -/
def IsWritable (w : Workflow) : Prop := w.payload.IsValue ∧ ∀ r ∈ w.responses, r.IsWritable

theorem agree_id : Json.Agree (Json.ofOption Json.ofUuid) (Json.nullable Json.uuid?) fun o =>
    ∀ u, o = some u → True :=
  Json.agree_uuid.nullable fun _ h => by cases h

theorem agree_pool : Json.Agree (Json.ofOption .string) (Json.nullable Json.string?) fun o =>
    ∀ p, o = some p → True :=
  Json.agree_string.nullable fun _ h => by cases h

theorem agree_callback :
    Json.Agree (Json.ofOption Callback.toJson) (Json.nullable Callback.ofJson?) fun o =>
      ∀ c, o = some c → True :=
  Callback.agree.nullable fun _ h => by cases h

/-- A written workflow has all its fields, the callback only if there is one. -/
theorem fields?_toJson (w : Workflow) :
    ∃ f, w.toJson.fields? fieldNames = some f ∧
      f.value? "id" = some (.ofOption .ofUuid w.id) ∧
      f.value? "workflow_type" = some (.string w.type) ∧
      f.value? "pool_id" = some (.ofOption .string w.pool) ∧
      f.value? "priority" = some (.ofInt32 w.priority) ∧
      f.value? "state" = some w.stage.toJson ∧
      f.value? "payload" = some w.payload ∧
      f.value? "register_call" = w.callback.map Callback.toJson ∧
      f.value? "responses" = some (.ofList Response.toJson w.responses) ∧
      f.value? "wait_expired" = some (.bool w.waitExpired) := by
  obtain ⟨id, type, pool, priority, stage, payload, callback, responses, waitExpired⟩ := w
  cases callback with
  | none =>
    refine ⟨_, Json.fields?_object (by simp [fieldNames]) (by simp), ?_⟩
    simp [Fields.value?, List.lookup_cons]
  | some c =>
    refine ⟨_, Json.fields?_object (by simp [fieldNames]) (by simp), ?_⟩
    simp [Fields.value?, List.lookup_cons]

theorem agree : Json.Agree toJson ofJson? IsWritable where
  back w h := by
    obtain ⟨f, fields, id, type, pool, priority, stage, payload, callback, responses,
      waitExpired⟩ := fields?_toJson w
    have callback_read :
        f.defaulted "register_call" (Json.nullable Callback.ofJson?) none = some w.callback := by
      unfold Fields.defaulted
      rw [callback]
      cases w.callback with
      | none => rfl
      | some c => exact agree_callback.back (some c) fun _ _ => trivial
    unfold ofJson?
    simp [fields, Fields.optional_found id, agree_id.back w.id fun _ _ => trivial,
      Fields.required_found type, Json.string?, Fields.optional_found pool,
      agree_pool.back w.pool fun _ _ => trivial, Fields.required_found priority,
      Json.agree_int32.back w.priority trivial, Fields.required_found stage,
      Stage.agree.back w.stage trivial, Fields.required_found payload, Json.any?_of_isValue h.1,
      callback_read, Fields.defaulted_found responses,
      Response.agree.listOf.back w.responses h.2, Fields.defaulted_found waitExpired, Json.bool?]
  fit j w h := by
    unfold ofJson? at h
    simp only [Option.bind_eq_bind, Option.bind_eq_some_iff, Option.pure_def,
      Option.some.injEq] at h
    obtain ⟨f, _, id, _, type, _, pool, _, priority, _, stage, _, payload, hp, callback, _,
      responses, hr, waitExpired, _, rfl⟩ := h
    obtain ⟨j, hp⟩ := Fields.required_eq_some hp
    refine ⟨Json.isValue_any? hp, ?_⟩
    rcases Fields.defaulted_eq_some hr with rfl | ⟨j, hr⟩
    · intro r hr
      cases hr
    · exact Response.agree.listOf.fit _ _ hr

end Workflow

namespace Transient

/-- The payload is a value. -/
def IsWritable (t : Transient) : Prop := t.payload.IsValue

theorem agree : Json.Agree toJson ofJson? IsWritable where
  back t h := by
    have fields : t.toJson.fields? fieldNames = some ⟨false, _⟩ :=
      Json.fields?_object (by simp [fieldNames]) (by simp)
    unfold ofJson?
    simp [fields, Fields.required, Fields.value?, List.lookup_cons, Json.string?,
      Json.any?_of_isValue h]
  fit j t h := by
    unfold ofJson? at h
    simp only [Option.bind_eq_bind, Option.bind_eq_some_iff, Option.pure_def,
      Option.some.injEq] at h
    obtain ⟨f, _, type, _, payload, hp, rfl⟩ := h
    obtain ⟨j, hp⟩ := Fields.required_eq_some hp
    exact Json.isValue_any? hp

end Transient

/-! ## Round trips -/

/-- The written form of a value is one that the reader gives back, whether the program made the
value or the reader found it in some other form. -/
structure Json.RoundTrips {α : Type} (write : α → Json) (read : Json → Option α)
    (Fit : α → Prop) : Prop where
  /-- A fit value is read back from its written form. -/
  back : ∀ a, Fit a → read (write a) = some a
  /-- A value that was read from any form is read back from its own. -/
  settles : ∀ j a, read j = some a → read (write a) = some a
  /-- Writing, reading and writing again gives the same form. -/
  stable : ∀ j a b, read j = some a → read (write a) = some b → write b = write a

theorem Json.Agree.roundTrips {α : Type} {write : α → Json} {read : Json → Option α}
    {Fit : α → Prop} (h : Json.Agree write read Fit) : Json.RoundTrips write read Fit where
  back := h.back
  settles j a reads := h.back a (h.fit j a reads)
  stable j a b reads again := by
    have settled := h.back a (h.fit j a reads)
    rw [settled] at again
    cases again
    rfl

/-- Workflows, callbacks, responses and transient workflows are read back from what is written of
them: every callback, and every workflow, response and transient workflow whose payloads are values
of a program and whose lifetimes are whole milliseconds of one word. And whatever form one of them
was read from, an object with fields missing or unknown, an array or another spelling of an
identifier or a timestamp, its own form is read as the same value and written the same again. -/
theorem encodings_round_trip :
    Json.RoundTrips Workflow.toJson Workflow.ofJson? Workflow.IsWritable ∧
      Json.RoundTrips Callback.toJson Callback.ofJson? (fun _ => True) ∧
      Json.RoundTrips Response.toJson Response.ofJson? Response.IsWritable ∧
      Json.RoundTrips Transient.toJson Transient.ofJson? Transient.IsWritable :=
  ⟨Workflow.agree.roundTrips, Callback.agree.roundTrips, Response.agree.roundTrips,
    Transient.agree.roundTrips⟩

/-- A suspended workflow that waits from the inserted second at the end of 2016 to the first second
of all, with a failure that is kept for a millisecond. -/
def Workflow.leaping : Workflow where
  id := some ⟨0x0123456789abcdef0123456789abcdef⟩
  type := "order"
  pool := none
  priority := -1
  stage := .waiting
  payload := .object [("total", .int 3)]
  callback := some ⟨⟨7⟩, .first, some ((Instant.of? Instant.leastSecond 1).get rfl), ["paid"]⟩
  responses := [⟨"paid", .error "late", (Instant.of? 1483228799 1500000000).get rfl,
    some (Duration.ofMillis 1)⟩]
  waitExpired := false

/-- A workflow as the array of its first six fields, with a payload that names a member twice. -/
def Workflow.positional : Json :=
  .array [.string "0123456789ABCDEF0123456789ABCDEF", .string "order", .null, .int 5,
    .object [("ready", .null)], .object [("total", .int 3), ("total", .int 4)]]

/-- What that array says. -/
def Workflow.brief : Workflow :=
  { Workflow.create "order" (.object [("total", .int 4)]) with
    id := some ⟨0x0123456789abcdef0123456789abcdef⟩, priority := 5, stage := .ready }

theorem encodings_round_trip_leaping :
    Workflow.leaping.IsWritable ∧
      Workflow.ofJson? Workflow.leaping.toJson = some Workflow.leaping ∧
      Workflow.ofJson? Workflow.positional = some Workflow.brief ∧
      Workflow.ofJson? Workflow.brief.toJson = some Workflow.brief := by
  have writable : Workflow.leaping.IsWritable := by
    refine ⟨by decide, ?_⟩
    intro r hr
    simp only [Workflow.leaping, List.mem_singleton] at hr
    subst hr
    refine ⟨fun _ h => (by cases h), ?_⟩
    intro d hd
    cases hd
    decide
  have positional : Workflow.ofJson? Workflow.positional = some Workflow.brief := by decide +kernel
  exact ⟨writable, encodings_round_trip.1.back _ writable, positional,
    encodings_round_trip.1.settles _ _ positional⟩

end Resumption
