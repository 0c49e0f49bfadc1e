import TraceGuard.ControlModels

/-! The JSON of the control plane's records, and how they are read back from it. -/

/-- The moment of a time with an offset, when it can be written in UTC. -/
def Datetime.instant (d : Datetime) : Option Instant :=
  match d.moment with
  | some micros =>
    if h : 0 ≤ micros ∧ micros.toNat < Calendar.lastDay*86400000000 then some ⟨micros.toNat, h.2⟩
    else none
  | none => none

theorem Datetime.instant_utc (t : Instant) : (Datetime.utc t).instant = some t := by
  have hm : (Datetime.utc t).moment = some (t.micros : Int) := by simp [utc, moment]
  have ht : (t.micros : Int).toNat = t.micros := Int.toNat_natCast _
  have hr : 0≤(t.micros : Int) ∧ (t.micros : Int).toNat < Calendar.lastDay*86400000000 :=
    ⟨Int.natCast_nonneg _, ht ▸ t.range⟩
  simp only [instant, hm]
  rw [dif_pos hr]
  rfl

namespace TraceGuard
open Json (Codec)

/-- An instant as a model writes it. -/
def instantCodec : Codec Instant where
  enc := instantJson
  dec
    | .str s => (Datetime.ofText s).bind Datetime.instant
    | _ => none
  read t := by
    simp only [instantJson, Json.sorted, Datetime.ofText_text, Option.bind_some]
    exact Datetime.instant_utc t

def optionalText : Codec (Option String) where
  enc := optional
  dec
    | .null => some none
    | .str s => some (some s)
    | _ => none
  read
    | none => rfl
    | some _ => rfl

namespace AuditEvent

/-- An event with a given hash, from a dump that may leave the hash out. -/
def ofBody (eventHash : String) (v : Json) : Option AuditEvent := do
  let auditId ← Codec.field "audit_id" .text v
  let tenantId ← Codec.field "tenant_id" .text v
  let eventType ← Codec.field "event_type" .text v
  let actor ← Codec.field "actor" .text v
  let payload ← Codec.field "payload" .doc v
  let previousHash ← Codec.field "previous_hash" optionalText v
  let createdAt ← Codec.field "created_at" instantCodec v
  let sequence ← Codec.field "sequence" .nat v
  some { auditId, tenantId, eventType, actor, payload, previousHash, eventHash, createdAt, sequence }

theorem ofBody_members (e : AuditEvent) {ms : List (String × Json)} (hn : (ms.map Prod.fst).Nodup)
    (h : ∀ key≠"event_hash", ms.lookup key = e.bodyMembers.lookup key) :
    ofBody e.eventHash (Json.obj ms).sorted = some e := by
  unfold ofBody
  rw [Codec.field_read (a := e.auditId) hn ((h _ (by decide)).trans rfl),
    Codec.field_read (a := e.tenantId) hn ((h _ (by decide)).trans rfl),
    Codec.field_read (a := e.eventType) hn ((h _ (by decide)).trans rfl),
    Codec.field_read (a := e.actor) hn ((h _ (by decide)).trans rfl),
    Codec.field_read (a := e.payload) hn ((h _ (by decide)).trans rfl),
    Codec.field_read (a := e.previousHash) hn ((h _ (by decide)).trans rfl),
    Codec.field_read (a := e.createdAt) hn ((h _ (by decide)).trans rfl),
    Codec.field_read (a := e.sequence) hn ((h _ (by decide)).trans rfl)]
  rfl

theorem bodyMembers_nodup (e : AuditEvent) : (e.bodyMembers.map Prod.fst).Nodup := by
  simp only [bodyMembers, List.map_cons, List.map_nil]
  decide

theorem ofBody_body (e : AuditEvent) : ofBody e.eventHash e.body.sorted = some e :=
  e.ofBody_members e.bodyMembers_nodup fun _ _ => rfl

/-- The body and the hash determine the event. -/
theorem body_inj {e e' : AuditEvent} (hbody : e.body.sorted = e'.body.sorted)
    (hhash : e.eventHash=e'.eventHash) : e=e' := by
  have h := e.ofBody_body
  rw [hbody, hhash, e'.ofBody_body] at h
  exact (Option.some.inj h).symm

end AuditEvent
end TraceGuard
