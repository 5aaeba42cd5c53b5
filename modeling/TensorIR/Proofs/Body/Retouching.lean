import TensorIR.Proofs.Body.Tables
import TensorIR.Proofs.Body.Wiring

/-!
# What passes leave alone in a body

A pass over a body retouches expressions and does nothing else: connectors, schedule, numbers and
ordinals stay (`Body.Retouched`), and whatever is coherent before one is coherent after it
(`Coherent.retouched`). The attachment of emitters is such a pass, also when it stops half way; so
is shape inference, which leaves even more alone and is looked at by itself. The structural edits
are the only operations that are none.
-/

set_option autoImplicit false

namespace TensorIR.Body

/-- The second body is the first with expressions retouched. -/
structure Retouched (b b' : Body) : Prop where
  connectors : b'.connectors = b.connectors
  order : b'.order = b.order
  ids : b'.ids = b.ids
  nextInput : b'.nextInput = b.nextInput
  nextOutput : b'.nextOutput = b.nextOutput
  provider : b'.provider = b.provider
  exprs : ∀ id, Option.Rel Expression.Retouched (b.exprs.get? id) (b'.exprs.get? id)

variable {b b' : Body}

namespace Retouched

theorem refl (b : Body) : Retouched b b where
  connectors := rfl
  order := rfl
  ids := rfl
  nextInput := rfl
  nextOutput := rfl
  provider := rfl
  exprs id := by
    cases b.exprs.get? id with
    | none => exact .none
    | some e => exact .some (.refl e)

theorem trans {b₁ b₂ b₃ : Body} (h₁₂ : Retouched b₁ b₂) (h₂₃ : Retouched b₂ b₃) :
    Retouched b₁ b₃ where
  connectors := h₂₃.connectors.trans h₁₂.connectors
  order := h₂₃.order.trans h₁₂.order
  ids := h₂₃.ids.trans h₁₂.ids
  nextInput := h₂₃.nextInput.trans h₁₂.nextInput
  nextOutput := h₂₃.nextOutput.trans h₁₂.nextOutput
  provider := h₂₃.provider.trans h₁₂.provider
  exprs id := by
    have h₁ := h₁₂.exprs id
    have h₂ := h₂₃.exprs id
    revert h₁ h₂
    generalize b₁.exprs.get? id = o₁
    generalize b₂.exprs.get? id = o₂
    generalize b₃.exprs.get? id = o₃
    rintro (h | _) (h' | _)
    · exact .some (h.trans h')
    · exact .none

/-- Every expression of the second body was there before. -/
theorem before (h : Retouched b b') {id : ExprId} {e' : Expression}
    (he' : b'.exprs.get? id = some e') : ∃ e, b.exprs.get? id = some e ∧ e.Retouched e' := by
  have hrel := h.exprs id
  rw [he'] at hrel
  cases hb : b.exprs.get? id with
  | none => rw [hb] at hrel; cases hrel
  | some e =>
    rw [hb] at hrel
    cases hrel with
    | some hee' => exact ⟨e, rfl, hee'⟩

/-- Every expression of the first body is still there. -/
theorem after (h : Retouched b b') {id : ExprId} {e : Expression}
    (he : b.exprs.get? id = some e) : ∃ e', b'.exprs.get? id = some e' ∧ e.Retouched e' := by
  have hrel := h.exprs id
  rw [he] at hrel
  cases hb : b'.exprs.get? id with
  | none => rw [hb] at hrel; cases hrel
  | some e' =>
    rw [hb] at hrel
    cases hrel with
    | some hee' => exact ⟨e', rfl, hee'⟩

theorem live_iff (h : Retouched b b') (id : ExprId) :
    (∃ e, b'.exprs.get? id = some e) ↔ ∃ e, b.exprs.get? id = some e :=
  ⟨fun ⟨_, he⟩ => (h.before he).imp fun _ h => h.1, fun ⟨_, he⟩ => (h.after he).imp fun _ h => h.1⟩

theorem get?_eq_none (h : Retouched b b') {id : ExprId} (hid : b.exprs.get? id = none) :
    b'.exprs.get? id = none := by
  refine Option.eq_none_iff_forall_ne_some.mpr fun e' he' => ?_
  obtain ⟨e, he, -⟩ := h.before he'
  rw [hid] at he
  cases he

theorem reads_iff (h : Retouched b b') {slot : Slot} {c : ConnectorId} :
    b'.Reads slot c ↔ b.Reads slot c := by
  constructor
  · intro hx
    obtain ⟨e', he', hc⟩ := hx
    obtain ⟨e, he, hee'⟩ := h.before he'
    exact ⟨e, he, by rwa [← hee'.inputs]⟩
  · intro hx
    obtain ⟨e, he, hc⟩ := hx
    obtain ⟨e', he', hee'⟩ := h.after he
    exact ⟨e', he', by rwa [hee'.inputs]⟩

theorem feeds_iff (h : Retouched b b') {slot : Slot} {c : ConnectorId} :
    b'.Feeds slot c ↔ b.Feeds slot c := by
  constructor
  · intro hx
    obtain ⟨e', he', hc⟩ := hx
    obtain ⟨e, he, hee'⟩ := h.before he'
    exact ⟨e, he, by rwa [← hee'.outputs]⟩
  · intro hx
    obtain ⟨e, he, hc⟩ := hx
    obtain ⟨e', he', hee'⟩ := h.after he
    exact ⟨e', he', by rwa [hee'.outputs]⟩

theorem nextOrdinal (h : Retouched b b') (side : Direction) :
    b'.nextOrdinal side = b.nextOrdinal side := by
  cases side with
  | input => exact h.nextInput
  | output => exact h.nextOutput

end Retouched

/-! ## Coherence is kept -/

theorem Wired.retouched (hw : Wired b) (h : Retouched b b') : Wired b' where
  nodup := by rw [h.order]; exact hw.nodup
  mem_order id := by rw [h.order, h.live_iff]; exact hw.mem_order id
  reads_iff slot c := by rw [h.reads_iff, h.connectors]; exact hw.reads_iff slot c
  feeds_iff slot c := by rw [h.feeds_iff, h.connectors]; exact hw.feeds_iff slot c
  ordered slot c k hr hk := by
    rw [h.reads_iff] at hr
    rw [h.connectors] at hk
    rw [RunsBefore, h.order]
    exact hw.ordered slot c k hr hk

theorem Numbered.retouched (hn : Numbered b) (h : Retouched b b') : Numbered b' where
  installed id e' he' := by
    obtain ⟨e, he, hee'⟩ := h.before he'
    rw [h.provider]
    exact (hn.installed id e he).retouched hee'
  expr_lt id e' he' := by
    obtain ⟨e, he, -⟩ := h.before he'
    rw [h.ids]
    exact hn.expr_lt id e he
  connector_lt c k hk := by
    rw [h.connectors] at hk
    rw [h.ids]
    exact hn.connector_lt c k hk
  ordinal_lt id e' role he' hrole := by
    obtain ⟨e, he, hee'⟩ := h.before he'
    rw [h.nextOrdinal]
    exact hn.ordinal_lt id e role he (hee'.role ▸ hrole)
  ordinal_mono id₁ e₁' role₁ id₂ e₂' role₂ he₁' hrole₁ he₂' hrole₂ := by
    obtain ⟨e₁, he₁, hee₁⟩ := h.before he₁'
    obtain ⟨e₂, he₂, hee₂⟩ := h.before he₂'
    exact hn.ordinal_mono id₁ e₁ role₁ id₂ e₂ role₂ he₁ (hee₁.role ▸ hrole₁) he₂
      (hee₂.role ▸ hrole₂)

theorem Coherent.retouched (hc : Coherent b) (h : Retouched b b') : Coherent b' :=
  { hc.toWired.retouched h, hc.toNumbered.retouched h with }

/-! ## Passes are retouches -/

theorem retouched_exprs_insert {id : ExprId} {e e' : Expression} (he : b.exprs.get? id = some e)
    (h : e.Retouched e') : Retouched b { b with exprs := b.exprs.insert id e' } where
  connectors := rfl
  order := rfl
  ids := rfl
  nextInput := rfl
  nextOutput := rfl
  provider := rfl
  exprs id' := by
    dsimp only
    rw [OrderedMap.get?_insert]
    by_cases hid : id' = id
    · subst hid
      rw [if_pos rfl, he]
      exact .some h
    · rw [if_neg hid]
      exact (Retouched.refl b).exprs id'

theorem retouched_onExpr {α : Type} {f : Expression → Except IrError α × Expression}
    (hf : ∀ e : Expression, e.Retouched (f e).2) (b : Body) (id : ExprId) :
    Retouched b (b.onExpr id f).2 := by
  rcases onExpr_cases b id f with ⟨err, h⟩ | ⟨e, he, h⟩
  · rw [h]
    exact .refl b
  · rw [h]
    exact retouched_exprs_insert he (hf e)

theorem retouched_editExpr {f : Expression → Except IrError Expression}
    (hf : ∀ e e' : Expression, f e = .ok e' → e.Retouched e') (b : Body) (id : ExprId) :
    Retouched b (b.editExpr id f).2 := by
  rcases editExpr_cases b id f with ⟨err, h⟩ | ⟨e, e', he, hfe, h⟩
  · rw [h]
    exact .refl b
  · rw [h]
    exact retouched_exprs_insert he (hf e e' hfe)

theorem retouched_initEmittersOf (target : Target) (b : Body) (ids : List ExprId) :
    Retouched b (initEmittersOf target b ids).2 := by
  induction ids generalizing b with
  | nil => exact .refl b
  | cons id ids ih =>
    have hstep : Retouched b (b.editExpr id (·.initEmitter target)).2 :=
      retouched_editExpr (fun _ _ h => Expression.retouched_initEmitter h) b id
    rw [initEmittersOf]
    split
    next heq => rw [heq] at hstep; exact hstep
    next heq => rw [heq] at hstep; exact hstep.trans (ih _)

theorem retouched_initEmitters (b : Body) (target : Target) :
    Retouched b (b.initEmitters target).2 :=
  retouched_initEmittersOf target b b.order

end TensorIR.Body
