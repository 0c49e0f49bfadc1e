import TraceGuard.ControlJson
import TraceGuard.ExecutionAuthority

/-! The text of an issued grant determines the grant. -/
namespace TraceGuard
namespace ExecutionGrant

theorem dump_distinct (g : ExecutionGrant) : Json.Distinct g.dump := by
  refine .obj ?_ fun m hm => ?_
  · simp only [unsignedMembers, List.map_append, List.map_cons, List.map_nil]
    decide
  · simp only [unsignedMembers, List.cons_append, List.nil_append, List.mem_cons,
      List.not_mem_nil, or_false] at hm
    rcases hm with rfl | rfl | rfl | rfl | rfl | rfl | rfl | rfl | rfl | rfl | rfl | rfl | rfl | rfl |
      rfl | rfl | rfl | rfl | rfl
    all_goals first
      | exact .str _
      | exact .int _
      | exact .bool _
      | (show Json.Distinct (optional g.budgetLimit); cases g.budgetLimit with
        | none => exact .null
        | some _ => exact .str _)

theorem unsigned_plain (g : ExecutionGrant) : g.unsigned.plain = true := by
  simp [unsigned, unsignedMembers, Json.plain, Json.plainMembers, optional_plain]

theorem dump_plain (g : ExecutionGrant) : g.dump.plain = true := by
  simp [dump, unsignedMembers, Json.plain, Json.plainMembers, optional_plain]

theorem loads_dumpJson (g : ExecutionGrant) : Json.loads g.dumpJson = some g.dump :=
  Json.loads_chars modelStyle g.dump_distinct g.dump_plain

theorem optional_inj {a b : Option String} (h : optional a = optional b) : a=b := by
  cases a <;> cases b <;> simp_all [optional]

theorem time_inj {d d' : Datetime} (h : d.text true = d'.text true) : d=d' := by
  have hread := Datetime.ofText_text true d
  rw [h, Datetime.ofText_text] at hread
  exact (Option.some.inj hread).symm

theorem dump_inj {g g' : ExecutionGrant} (h : g.dump=g'.dump) : g=g' := by
  simp only [dump, unsignedMembers, List.cons_append, List.nil_append, Json.obj.injEq, List.cons.injEq,
    Prod.mk.injEq, true_and, Json.str.injEq, Json.int.injEq, Json.bool.injEq, and_true,
    Nat.cast_inj] at h
  obtain ⟨h1, h2, h3, h4, h5, h6, h7, h8, h9, h10, h11, h12, h13, h14, h15, h16, h17, h18, h19⟩ := h
  cases g
  cases g'
  have hissued := time_inj h13
  have hexpires := time_inj h14
  have hbudget := optional_inj h17
  simp_all

theorem dumpJson_inj {g g' : ExecutionGrant} (h : g.dumpJson=g'.dumpJson) : g=g' := by
  have hread := g.loads_dumpJson
  rw [h, g'.loads_dumpJson] at hread
  exact dump_inj (Option.some.inj hread).symm

theorem grantedTask_dumpJson (g : ExecutionGrant) :
    ExecutionAuthority.grantedTask g.dumpJson = some (g.tenantId, g.taskId) := by
  unfold ExecutionAuthority.grantedTask
  rw [g.loads_dumpJson]
  rfl

end ExecutionGrant

/-- The digest of an action fixes its tenant and its task, where digests do not collide. -/
theorem actionDigest_task {crypto : Crypto} (collisionFree : Function.Injective crypto.sha256)
    {a a' : ActionRequest} (h : crypto.actionDigest a = crypto.actionDigest a') :
    a.tenantId=a'.tenantId ∧ a.taskId=a'.taskId := by
  have hsame := Json.text_inj a.payload_plain a'.payload_plain (collisionFree h)
  have hread (key : String) (b : ActionRequest) {value : String}
      (hl : b.payload.member key = some (.str value)) :
      Json.Codec.field key .text b.payload.sorted = some value := by
    refine Json.Codec.field_read ?_ hl
    simp only [List.map_cons, List.map_nil]
    decide
  have htenant := hread "tenant_id" a rfl
  have htask := hread "task_id" a rfl
  rw [hsame, hread "tenant_id" a' rfl] at htenant
  rw [hsame, hread "task_id" a' rfl] at htask
  exact ⟨(Option.some.inj htenant).symm, (Option.some.inj htask).symm⟩

end TraceGuard
