import TraceGuard.RecordJson
import TraceGuard.ControlRuns

/-! A control plane in a database. Each outer transaction loads and verifies the signed state, prunes,
runs one operation, prunes again and saves; a transaction that raises is rolled back. -/
namespace TraceGuard
open Json (Codec)
open Stateful ControlPlane

/-- The row of the database. -/
structure AuthorityRow where
  body : String
  signature : String

/-- What an instance holds, and what the database stores. -/
structure AuthorityState where
  plane : ControlState := {}
  revision : Nat := 0

namespace AuthorityState

def headCodec : Codec (Nat × String) where
  enc head := .arr [.int head.1, .str head.2]
  dec
    | .arr [sequence, hash] => do
      let sequence ← Codec.nat.dec sequence
      let hash ← Codec.text.dec hash
      some (sequence, hash)
    | _ => none
  read head := by
    have hsequence : Codec.nat.dec (.int head.1) = some head.1 := Codec.nat.read head.1
    simp only [Json.sorted, Json.sortedItems, hsequence]
    rfl

/-- The members of a set, as an array. -/
def setCodec {κ : Type} [LinearOrder κ] (c : Codec κ) : Codec (SortedMap κ Unit) :=
  .entries (c.via Prod.fst (fun k => some (k, ())) fun _ => rfl)

/-- `_dump`. -/
def members (keyId : String) (s : AuthorityState) : List (String × Json) :=
  [("schema", .int 1), ("key_id", .str keyId), ("revision", .int s.revision),
    ("policies", (Codec.map (.list PolicyVersion.codec)).enc s.plane.policies),
    ("audits", (Codec.map (.list AuditEvent.codec)).enc s.plane.audits),
    ("heads", (Codec.map headCodec).enc s.plane.auditHeads),
    ("epochs", (Codec.map .nat).enc s.plane.epochs),
    ("reviews", (Codec.map Review.codec).enc s.plane.reviews),
    ("receipts", (Codec.entries receiptCodec).enc s.plane.idempotent),
    ("tasks", (Codec.entries RegisteredTask.entryCodec).enc s.plane.executionTasks),
    ("issued", (Codec.map .text).enc s.plane.executionIssued),
    ("revoked", (setCodec texts).enc s.plane.revokedCredentials),
    ("suspended", (setCodec .text).enc s.plane.suspendedTenants)]

def dump (keyId : String) (s : AuthorityState) : Json := .obj (s.members keyId)

def ofJson (v : Json) : Option AuthorityState := do
  let revision ← Codec.field "revision" .nat v
  let policies ← Codec.field "policies" (.map (.list PolicyVersion.codec)) v
  let audits ← Codec.field "audits" (.map (.list AuditEvent.codec)) v
  let auditHeads ← Codec.field "heads" (.map headCodec) v
  let epochs ← Codec.field "epochs" (.map .nat) v
  let reviews ← Codec.field "reviews" (.map Review.codec) v
  let idempotent ← Codec.field "receipts" (.entries receiptCodec) v
  let executionTasks ← Codec.field "tasks" (.entries RegisteredTask.entryCodec) v
  let executionIssued ← Codec.field "issued" (.map .text) v
  let revokedCredentials ← Codec.field "revoked" (setCodec texts) v
  let suspendedTenants ← Codec.field "suspended" (setCodec .text) v
  some ⟨{ policies, audits, auditHeads, reviews, idempotent, epochs, executionTasks, executionIssued,
          revokedCredentials, suspendedTenants }, revision⟩

/-- `_load`. -/
def load (keyId : String) (v : Json) : Except ServiceError AuthorityState :=
  if Codec.field "schema" .nat v≠some 1 ∨ Codec.field "key_id" .text v≠some keyId then
    .error (.value "unsupported authority storage schema")
  else match ofJson v with
    | some s => .ok s
    | none => .error (.value "stored authority state cannot be read")

theorem members_nodup (keyId : String) (s : AuthorityState) : ((s.members keyId).map Prod.fst).Nodup := by
  simp only [members, List.map_cons, List.map_nil]
  decide

theorem ofJson_dump (keyId : String) (s : AuthorityState) : ofJson (s.dump keyId).sorted = some s := by
  have hn := s.members_nodup keyId
  unfold ofJson dump
  rw [Codec.field_read (a := s.revision) hn rfl, Codec.field_read (a := s.plane.policies) hn rfl,
    Codec.field_read (a := s.plane.audits) hn rfl, Codec.field_read (a := s.plane.auditHeads) hn rfl,
    Codec.field_read (a := s.plane.epochs) hn rfl, Codec.field_read (a := s.plane.reviews) hn rfl,
    Codec.field_read (a := s.plane.idempotent) hn rfl,
    Codec.field_read (a := s.plane.executionTasks) hn rfl,
    Codec.field_read (a := s.plane.executionIssued) hn rfl,
    Codec.field_read (a := s.plane.revokedCredentials) hn rfl,
    Codec.field_read (a := s.plane.suspendedTenants) hn rfl]
  rfl

/-- Every field of a state is loaded from its dump. -/
theorem load_dump (keyId : String) (s : AuthorityState) : load keyId (s.dump keyId).sorted = .ok s := by
  have hn := s.members_nodup keyId
  have hschema : Codec.field "schema" .nat (s.dump keyId).sorted = some 1 :=
    Codec.field_read (a := 1) hn rfl
  have hkey : Codec.field "key_id" .text (s.dump keyId).sorted = some keyId :=
    Codec.field_read (a := keyId) hn rfl
  unfold load
  rw [hschema, hkey, if_neg (by simp), s.ofJson_dump]

end AuthorityState

/-- `datetime.fromisoformat(json.loads(serialized)["expires_at"])`. -/
def grantExpiry (serialized : String) : Option Datetime := do
  let grant ← Json.loads serialized
  match ← grant.member "expires_at" with
  | .str expires => Datetime.ofText expires
  | _ => none

/-- What has not expired. -/
def ControlState.unexpired (s : ControlState) (t : Instant) : ControlState :=
  { s with
    idempotent := s.idempotent.filter fun _ receipt => t.micros < receipt.expiresAt.micros
    reviews := s.reviews.filter fun _ review => t.micros < review.expiresAt.micros
    executionIssued := s.executionIssued.filter fun _ serialized =>
      (grantExpiry serialized).any fun expires => expires.after t }

/-- No collection has more entries than the bound. -/
def ControlState.within (s : ControlState) (maxEntries : Nat) : Bool :=
  s.idempotent.size≤ maxEntries && s.reviews.size≤ maxEntries && s.executionTasks.size≤ maxEntries &&
  s.executionIssued.size≤ maxEntries && s.revokedCredentials.size≤ maxEntries &&
  s.policies.size≤ maxEntries && (s.policies.values.all fun ps => ps.length≤ maxEntries) &&
  s.audits.values.all fun events => events.length≤ maxEntries

structure SQLiteControlPlane where
  signingKey : String
  keyId : String := "authority-ed25519-v1"
  maxEntries : Nat := 10000
  maxStateBytes : Nat := 33554432

/-- The database, and what the world has given out. -/
structure Durable where
  row : Option AuthorityRow := none
  readings : Nat := 0
  identifiers : Nat := 0

namespace SQLiteControlPlane
variable (world : World) {α : Type} (self : SQLiteControlPlane)

/-- `_prune_and_bound`. -/
def pruneAndBound : Operation Unit := do
  let t ← now world
  inspect fun s => do
    if s.executionIssued.values.any fun serialized => (grantExpiry serialized).isNone then
      throw (.value "stored grant has no expiry")
    if (s.unexpired t).within self.maxEntries = false then throw .capacity
  update fun s => s.unexpired t

/-- An operation within a transaction. -/
def transacted (operation : Operation α) : Operation α := do
  self.pruneAndBound world
  let result ← operation
  self.pruneAndBound world
  return result

def stateSeed : String := world.crypto.seed self.signingKey "traceguard-authority-state-v1"

/-- What a transaction starts from: the stored state, or at the first initialization its own. -/
def begin (allowInitialize : Bool) (memory : AuthorityState) : Option AuthorityRow →
    Except ServiceError AuthorityState
  | none => if allowInitialize then .ok memory
      else .error (.value "authority state was lost; explicit recovery is required")
  | some row =>
    if self.maxStateBytes < row.body.utf8ByteSize then .error .capacity
    else match Json.loads row.body with
      | none => .error (.value "stored authority state cannot be read")
      | some data =>
        if world.crypto.verifyValue (world.crypto.publicKey (self.stateSeed world)) data
            row.signature = false then
          .error (.value "authority state signature is invalid; refusing recovery")
        else AuthorityState.load self.keyId data

/-- The row that a state is saved as. -/
def save (after : AuthorityState) : Except ServiceError AuthorityRow :=
  match canonical (after.dump self.keyId) with
  | none => .error (.value "Out of range float values are not JSON compliant")
  | some body =>
    if self.maxStateBytes < body.utf8ByteSize then .error .capacity
    else .ok ⟨body, world.crypto.sign (self.stateSeed world) body⟩

/-- `transaction`, with what the instance held in memory before. -/
def transaction (allowInitialize : Bool) (operation : Operation α) (memory : AuthorityState) (d : Durable) :
    Except ServiceError α × Durable :=
  match self.begin world allowInitialize memory d.row with
  | .error e => (.error e, d)
  | .ok before =>
    match outcome (self.transacted world operation) ⟨before.plane, d.readings, d.identifiers⟩ with
    | (.error e, m) => (.error e, ⟨d.row, m.readings, m.identifiers⟩)
    | (.ok a, m) =>
      match self.save world ⟨m.plane, before.revision+1⟩ with
      | .error e => (.error e, ⟨d.row, m.readings, m.identifiers⟩)
      | .ok row => (.ok a, ⟨some row, m.readings, m.identifiers⟩)

end SQLiteControlPlane

end TraceGuard
