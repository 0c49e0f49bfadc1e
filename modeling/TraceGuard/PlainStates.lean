import TraceGuard.AuditChain
import TraceGuard.DurableKeys
import TraceGuard.GrantText

/-! What can be saved. A state has a text when its policies, events and receipts hold finite numbers only,
and what an issuance adds holds none; so its transaction commits within the quotas. -/
namespace TraceGuard
open Json (Codec)
open Stateful ControlPlane SQLiteControlPlane

theorem Review.codec_plain (r : Review) : (Review.codec.enc r).plain = true := by
  simp [codec, members, Json.plain, Json.plainMembers, optional_plain, instantJson]

theorem RegisteredTask.codec_plain (e : List String × RegisteredTask) :
    (RegisteredTask.entryCodec.enc e).plain = true := by
  have hkey := texts_plain e.1
  simp [entryCodec, codec, members, CompiledAuthority.codec, CompiledAuthority.members, Json.plain,
    Json.plainMembers, Json.plainItems, hkey]

/-- The parts of a state that hold values of any kind. -/
structure ControlState.Plain (s : ControlState) : Prop where
  policies : ((Codec.map (.list PolicyVersion.codec)).enc s.policies).plain = true
  audits : ∀ e∈s.audits.entries, ∀ event∈e.2, (AuditEvent.codec.enc event).plain = true
  receipts : ∀ e∈s.idempotent.entries, (receiptCodec.enc e).plain = true

theorem AuthorityState.dump_plain {keyId : String} {s : AuthorityState} :
    (s.dump keyId).plain = true ↔ s.plane.Plain := by
  have hheads : ((Codec.map headCodec).enc s.plane.auditHeads).plain = true :=
    Codec.map_plain.mpr fun _ _ => rfl
  have hepochs : ((Codec.map .nat).enc s.plane.epochs).plain = true :=
    Codec.map_plain.mpr fun _ _ => rfl
  have hreviews : ((Codec.map Review.codec).enc s.plane.reviews).plain = true :=
    Codec.map_plain.mpr fun e _ => e.2.codec_plain
  have htasks : ((Codec.entries RegisteredTask.entryCodec).enc s.plane.executionTasks).plain = true :=
    Codec.entries_plain.mpr fun e _ => RegisteredTask.codec_plain e
  have hissued : ((Codec.map .text).enc s.plane.executionIssued).plain = true :=
    Codec.map_plain.mpr fun _ _ => rfl
  have hrevoked : ((setCodec texts).enc s.plane.revokedCredentials).plain = true :=
    Codec.entries_plain.mpr fun e _ => texts_plain e.1
  have hsuspended : ((setCodec .text).enc s.plane.suspendedTenants).plain = true :=
    Codec.entries_plain.mpr fun _ _ => rfl
  have haudits : ((Codec.map (.list AuditEvent.codec)).enc s.plane.audits).plain = true ↔
      ∀ e∈s.plane.audits.entries, ∀ event∈e.2, (AuditEvent.codec.enc event).plain = true :=
    Codec.map_plain.trans (forall₂_congr fun _ _ => Codec.list_plain)
  simp only [dump, members, Json.plain, Json.plainMembers, hheads, hepochs, hreviews, htasks, hissued,
    hrevoked, hsuspended, Bool.and_true, Bool.true_and, Bool.and_eq_true]
  rw [haudits, Codec.entries_plain]
  constructor
  · rintro ⟨hp, ha, hr⟩
    exact ⟨hp, ha, hr⟩
  · rintro ⟨hp, ha, hr⟩
    exact ⟨hp, ha, hr⟩

namespace ControlState
variable {s : ControlState}

theorem Plain.unexpired (h : s.Plain) (t : Instant) : (s.unexpired t).Plain :=
  ⟨h.policies, h.audits, fun e he => h.receipts e (List.mem_filter.mp he).1⟩

/-- What an issuance adds can be written. -/
theorem Plain.recorded {world : World} {m : Machine} (h : m.plane.Plain)
    (tenant eventType subject : String) (payload : Arguments) :
    (m.recorded world tenant eventType subject payload).plane.Plain := by
  refine ⟨h.policies, fun e he event hevent => ?_, h.receipts⟩
  have hold : ∀ tenant, ∀ event∈m.plane.auditsOf tenant, (AuditEvent.codec.enc event).plain = true := by
    intro tenant event hevent
    unfold auditsOf at hevent
    cases hget : m.plane.audits.get? tenant with
    | none => simp [hget] at hevent
    | some events =>
      rw [hget] at hevent
      exact h.audits _ (SortedMap.mem_entries.mpr hget) event hevent
  rcases SortedMap.mem_insertEntry he with rfl | he
  · rcases List.mem_append.mp hevent with hevent | hevent
    · exact hold _ event hevent
    · obtain rfl := List.mem_singleton.mp hevent
      have hbody := (event_links world m tenant eventType subject payload).plain
      show Json.plain (.obj _) = true
      simpa [AuditEvent.members, AuditEvent.body, Json.plain, Json.plainMembers] using hbody
  · exact h.audits e he event hevent

end ControlState

theorem grantExpiry_dumpJson (g : ExecutionGrant) : grantExpiry g.dumpJson = some g.expiresAt := by
  have hmember : g.dump.member "expires_at" = some (.str (g.expiresAt.text true)) := rfl
  unfold grantExpiry
  simp only [g.loads_dumpJson, Option.bind_eq_bind, Option.bind_some, hmember, Datetime.ofText_text]

variable {world : World} {self : SQLiteControlPlane}

/-- Every stored grant has an expiry. -/
def ControlState.Readable (s : ControlState) : Prop :=
  (s.executionIssued.values.any fun serialized => (grantExpiry serialized).isNone) = false

theorem ControlState.Readable.issued {s : ControlState} (h : s.Readable) (nonce : String)
    (g : ExecutionGrant) :
    ((s.executionIssued.insert nonce g.dumpJson).values.any
      fun serialized => (grantExpiry serialized).isNone) = false := by
  have hold := h
  simp only [Readable, SortedMap.values, List.any_map, List.any_eq_false, Function.comp_apply] at hold ⊢
  intro e he
  rcases SortedMap.mem_insertEntry he with rfl | he
  · simp [grantExpiry_dumpJson]
  · exact hold e he

theorem prune_within {s : ControlState} {readings identifiers : Nat} (h : s.Readable) :
    outcome (self.pruneAndBound world) ⟨s, readings, identifiers⟩ =
        (.ok (), ⟨s.unexpired (world.clock readings), readings+1, identifiers⟩) ∨
      ∃ m, outcome (self.pruneAndBound world) ⟨s, readings, identifiers⟩ = (.error .capacity, m) := by
  unfold pruneAndBound
  rw [now_bind, inspect, outcome_bind, outcome_check, if_neg (by simp [show _ = false from h])]
  dsimp only
  by_cases hbounded : (s.unexpired (world.clock readings)).within self.maxEntries = false
  · rw [if_pos hbounded]
    exact Or.inr ⟨_, rfl⟩
  · rw [if_neg hbounded]
    exact Or.inl rfl

theorem save_plain {after : AuthorityState} (h : (after.dump self.keyId).plain = true) :
    (∃ row, self.save world after = .ok row) ∨ self.save world after = .error .capacity := by
  rw [save, canonical, Json.dumps_plain h]
  dsimp only
  split
  · exact Or.inr rfl
  · exact Or.inl ⟨_, rfl⟩

/-- A transaction whose operation succeeds returns its result, unless a quota is exceeded. -/
theorem transaction_within
    (hverify : ∀ seed text, world.crypto.verify (world.crypto.publicKey seed) text
      (world.crypto.sign seed text) = true)
    {allowInitialize : Bool} {operation : Operation ControlResponse} {memory : AuthorityState}
    {d : Durable} {s : ControlState} {n : Nat} {v : Machine} {a : ControlResponse}
    (hd : d.Saved world self s n)
    (hop : outcome operation ⟨s.unexpired (world.clock d.readings), d.readings+1, d.identifiers⟩ =
      (.ok a, v))
    (hreadable : v.plane.Readable) (hplain : v.plane.Plain) :
    (self.transaction world allowInitialize operation memory d).1 = .ok a ∨
      (self.transaction world allowInitialize operation memory d).1 = .error .capacity := by
  rw [transaction, begin_of_saved hverify allowInitialize memory hd]
  rcases @prune_within world self v.plane v.readings v.identifiers hreadable with hpruned | ⟨m, hfull⟩
  · have htransacted : outcome (self.transacted world operation) ⟨s, d.readings, d.identifiers⟩ =
        (.ok a, ⟨v.plane.unexpired (world.clock v.readings), v.readings+1, v.identifiers⟩) := by
      rw [transacted, outcome_bind_ok (prune_tidy hd.tidy), outcome_bind_ok hop,
        outcome_bind_ok hpruned, outcome_pure]
    have hplain' : (AuthorityState.dump self.keyId
        ⟨v.plane.unexpired (world.clock v.readings), n+1⟩).plain = true :=
      AuthorityState.dump_plain.mpr (hplain.unexpired _)
    rcases @save_plain world self _ hplain' with ⟨row, hsave⟩ | hsave
    · exact Or.inl (by simp only [htransacted, hsave])
    · exact Or.inr (by simp only [htransacted, hsave])
  · have htransacted : outcome (self.transacted world operation) ⟨s, d.readings, d.identifiers⟩ =
        (.error .capacity, m) := by
      rw [transacted, outcome_bind_ok (prune_tidy hd.tidy), outcome_bind_ok hop]
      exact outcome_bind_error hfull
    exact Or.inr (by simp only [htransacted])

end TraceGuard
