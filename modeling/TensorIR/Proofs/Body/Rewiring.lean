import TensorIR.Proofs.Body.Reachable

/-!
# Rewirings are local and commute

A rewiring first finds out what it has to do, by look-ups alone (`plan`), and then does it. In a
sound body the second part cannot fail, so the plan is all there is to know about a call. It depends
on the operand itself, on the sources of the connectors and on the schedule, and none of that is
touched when another operand is rewired: two calls for different operands make the same plans in
either order.

What is then carried out changes each expression and each connector by a function of its own
(`rewiredAt`, `relisted`). The functions of different operands commute, whatever connectors they
share, because each adds or drops only the operand that it is about.
-/

set_option autoImplicit false

namespace TensorIR

/-- The second expression is the first with one operand that reads another connector. -/
structure Expression.Repointed (e : Expression) (index : Nat) (target : ConnectorId)
    (e' : Expression) : Prop where
  inputConnectors : e'.inputConnectors = e.inputConnectors.set index target
  inputDescriptors : e'.inputs.map Wire.descriptor = e.inputs.map Wire.descriptor
  outputs : e'.outputs = e.outputs
  id : e'.id = e.id
  node : e'.node = e.node
  emitter : e'.emitter = e.emitter
  loops : e'.loops = e.loops
  strategy : e'.strategy = e.strategy
  role : e'.role = e.role

theorem Expression.repointed (e : Expression) (index : Nat) (target : ConnectorId) :
    e.Repointed index target
      (e.modifyWire .input index fun w => { w with connector := target }) where
  inputConnectors := e.inputConnectors_rewired index target
  inputDescriptors := by
    have hkept : ∀ w : Wire, Wire.descriptor { w with connector := target } = w.descriptor :=
      fun _ => rfl
    exact map_modify hkept index e.inputs
  outputs := rfl
  id := rfl
  node := rfl
  emitter := rfl
  loops := rfl
  strategy := rfl
  role := rfl

namespace Body

variable {b b' : Body} {slot : Slot} {previous target : ConnectorId}

/-! ## Before anything is written -/

/-- What a rewiring has to do: release the connector that the operand reads, or nothing. -/
def plan (b : Body) (port : Port) (target : ConnectorId) : Except IrError (Option ConnectorId) :=
  match port.direction with
  | .output => .error (.invalidState (.notInput port))
  | .input => do
    let previous ← b.expr port.expr >>= (·.connector .input port.index)
    if previous = target then return none
    b.mayRead port target
    return some previous

theorem replaceInput_eq (b : Body) (port : Port) (target : ConnectorId) :
    b.replaceInput port target = match b.plan port target with
      | .error err => (.error err, b)
      | .ok none => (.ok (), b)
      | .ok (some previous) => b.moveRead port previous target := by
  unfold replaceInput plan
  cases port.direction with
  | output => rfl
  | input =>
    cases b.expr port.expr >>= (·.connector .input port.index) with
    | error err => rfl
    | ok previous =>
      by_cases heq : previous = target
      · simp [heq, bind, Except.bind, pure, Except.pure]
      · cases hmay : b.mayRead port target <;>
          simp [heq, bind, Except.bind, pure, Except.pure]

/-- A rewiring has something to do if the operand reads another connector and may read this one. -/
theorem plan_eq_some_iff {port : Port} :
    b.plan port target = .ok (some previous) ↔ port.direction = .input ∧
      b.Reads port.slot previous ∧ previous ≠ target ∧ b.mayRead port target = .ok () := by
  have hreads : b.expr port.expr >>= (·.connector .input port.index) = .ok previous ↔
      b.Reads port.slot previous := @reads_iff_connector b port.slot previous
  rw [← hreads, plan]
  cases port.direction with
  | output => simp
  | input =>
    cases b.expr port.expr >>= (·.connector .input port.index) with
    | error err => simp [bind, Except.bind]
    | ok found =>
      by_cases heq : found = target
      · subst heq
        simp only [bind, Except.bind, pure, Except.pure, if_true]
        constructor
        · intro hnone
          cases hnone
        · intro hx
          obtain ⟨-, hfound, hne, -⟩ := hx
          exact absurd (Except.ok.inj hfound).symm hne
      · cases hmay : b.mayRead port target <;>
          simp [heq, bind, Except.bind, pure, Except.pure]
        intro hfound
        rwa [← hfound]

/-- A call that has nothing to do, or that is refused, changes nothing. -/
theorem replaceInput_of_idle {port : Port}
    (hidle : ¬ ∃ previous, b.plan port target = .ok (some previous)) :
    (b.replaceInput port target).2 = b := by
  rw [replaceInput_eq]
  cases hplan : b.plan port target with
  | error err => rfl
  | ok found =>
    cases found with
    | none => rfl
    | some previous => exact absurd ⟨previous, hplan⟩ hidle

/-- In a sound body nothing fails that has been planned. -/
theorem Wired.replaceInput_of_plan (h : Wired b) {port : Port}
    (hplan : b.plan port target = .ok (some previous)) :
    ∃ b', b.replaceInput port target = (.ok (), b') ∧ Rewired b port.slot previous target b' := by
  obtain ⟨hdirection, hreads, hne, hmay⟩ := plan_eq_some_iff.mp hplan
  obtain ⟨k, hk, -⟩ := (mayRead_eq_ok_iff h.nodup).mp hmay
  obtain ⟨b', hmove, hrewired⟩ := h.moveRead_ok hreads hne hk
  rw [← Port.eq_input_slot hdirection] at hmove
  exact ⟨b', by rw [replaceInput_eq, hplan]; exact hmove, hrewired⟩

theorem Wired.fst_replaceInput (h : Wired b) (port : Port) (target : ConnectorId) :
    (b.replaceInput port target).1 = (b.plan port target).map fun _ => () := by
  cases hplan : b.plan port target with
  | error err => rw [replaceInput_eq, hplan]; rfl
  | ok found =>
    cases found with
    | none => rw [replaceInput_eq, hplan]; rfl
    | some previous =>
      obtain ⟨b', heq, -⟩ := h.replaceInput_of_plan hplan
      rw [heq]
      rfl

/-! ## What a rewiring leaves to the others -/

theorem Rewired.mayRead (hr : Rewired b slot previous target b') (port : Port) (c : ConnectorId) :
    b'.mayRead port c = b.mayRead port c := by
  unfold Body.mayRead connector Body.position
  rw [hr.connectors, hr.order]
  cases b.connectors.get? c with
  | none => rfl
  | some k => simp [bind, Except.bind]

theorem Rewired.found (hr : Rewired b slot previous target b') {other : Slot}
    (hne : other ≠ slot) :
    b'.expr other.expr >>= (·.connector .input other.index) =
      b.expr other.expr >>= (·.connector .input other.index) := by
  obtain ⟨e, he, hexprs⟩ := hr.exprs
  by_cases hid : other.expr = slot.expr
  · have hindex : slot.index ≠ other.index := Ne.symm (Slot.index_ne hne hid)
    rw [hid, expr_eq_ok_iff.mpr he, expr, hexprs, OrderedMap.get?_insert_self]
    exact Expression.connector_modifyWire_of_ne hindex _
  · rw [expr, expr, hexprs, OrderedMap.get?_insert_of_ne _ _ hid]

theorem Rewired.plan (hr : Rewired b slot previous target b') {port : Port}
    (hne : port.direction = .input → port.slot ≠ slot) (c : ConnectorId) :
    b'.plan port c = b.plan port c := by
  unfold Body.plan
  cases hdirection : port.direction with
  | output => rfl
  | input =>
    have hfound : b'.expr port.expr >>= (·.connector .input port.index) =
        b.expr port.expr >>= (·.connector .input port.index) := hr.found (hne hdirection)
    simp only [hfound, hr.mayRead]

/-- A call makes the same plan after a call for another port. -/
theorem Wired.plan_replaceInput (h : Wired b) {port other : Port} (hne : port ≠ other)
    (d c : ConnectorId) : (b.replaceInput other d).2.plan port c = b.plan port c := by
  by_cases hplan : ∃ previous, b.plan other d = .ok (some previous)
  · obtain ⟨previous, hplan⟩ := hplan
    obtain ⟨b', heq, hrewired⟩ := h.replaceInput_of_plan hplan
    obtain ⟨hother, -⟩ := plan_eq_some_iff.mp hplan
    rw [heq]
    exact hrewired.plan (fun hport hslot => hne (Port.eq_of_slot hport hother hslot)) c
  · rw [replaceInput_of_idle hplan]

/-! ## Two rewirings -/

/-- What a rewiring makes of an expression. -/
def rewiredAt (slot : Slot) (target : ConnectorId) (id : ExprId) (e : Expression) : Expression :=
  if id = slot.expr then e.modifyWire .input slot.index fun w => { w with connector := target }
  else e

theorem Rewired.get?_exprs (hr : Rewired b slot previous target b') (id : ExprId) :
    b'.exprs.get? id = (b.exprs.get? id).map (rewiredAt slot target id) := by
  obtain ⟨e, he, hexprs⟩ := hr.exprs
  rw [hexprs, OrderedMap.get?_insert]
  by_cases hid : id = slot.expr
  · subst hid
    simp [rewiredAt, he]
  · rw [if_neg hid]
    cases b.exprs.get? id <;> simp [rewiredAt, hid]

theorem rewiredAt_comm {slot₁ slot₂ : Slot} (hne : slot₁ ≠ slot₂) (target₁ target₂ : ConnectorId)
    (id : ExprId) (e : Expression) :
    rewiredAt slot₂ target₂ id (rewiredAt slot₁ target₁ id e) =
      rewiredAt slot₁ target₁ id (rewiredAt slot₂ target₂ id e) := by
  unfold rewiredAt
  by_cases h₁ : id = slot₁.expr
  · by_cases h₂ : id = slot₂.expr
    · have hindex : slot₁.index ≠ slot₂.index := Slot.index_ne hne (h₁.symm.trans h₂)
      rw [if_pos h₁, if_pos h₂, if_pos h₂, if_pos h₁]
      exact e.modifyWire_input_comm hindex _ _
    · simp only [if_neg h₂]
  · simp only [if_neg h₁]

/-- Only the rewired operand is added or dropped. -/
theorem reads_relisted {c : ConnectorId} {k : Connector} {other : Slot} :
    (relisted slot previous target c k).reads other = true ↔
      if other = slot then c = target ∨ (c ≠ previous ∧ k.reads other = true)
      else k.reads other = true := by
  unfold relisted
  by_cases htarget : c = target
  · rw [if_pos htarget, Connector.reads_addReader]
    by_cases hother : other = slot <;> simp [hother, htarget]
  · rw [if_neg htarget]
    by_cases hprevious : c = previous
    · subst hprevious
      rw [if_pos rfl, Connector.reads_dropReader]
      by_cases hother : other = slot <;> simp [hother, htarget]
    · by_cases hother : other = slot <;> simp [hother, htarget, hprevious]

theorem relisted_comm {slot₁ slot₂ : Slot} (hne : slot₁ ≠ slot₂)
    (previous₁ target₁ previous₂ target₂ c : ConnectorId) (k : Connector) :
    relisted slot₂ previous₂ target₂ c (relisted slot₁ previous₁ target₁ c k) =
      relisted slot₁ previous₁ target₁ c (relisted slot₂ previous₂ target₂ c k) := by
  refine Connector.ext_reads (by simp only [source_relisted]) fun other => ?_
  simp only [reads_relisted]
  by_cases h₁ : other = slot₁
  · subst h₁
    simp [hne]
  · simp [h₁]

theorem Rewired.comm {b₁ b₂ b₁₂ b₂₁ : Body} {slot₁ slot₂ : Slot}
    {previous₁ previous₂ target₁ target₂ : ConnectorId} (hne : slot₁ ≠ slot₂)
    (h₁ : Rewired b slot₁ previous₁ target₁ b₁) (h₁₂ : Rewired b₁ slot₂ previous₂ target₂ b₁₂)
    (h₂ : Rewired b slot₂ previous₂ target₂ b₂) (h₂₁ : Rewired b₂ slot₁ previous₁ target₁ b₂₁) :
    b₁₂ = b₂₁ := by
  apply ext_get?
  · intro id
    rw [h₁₂.get?_exprs, h₁.get?_exprs, h₂₁.get?_exprs, h₂.get?_exprs, Option.map_map,
      Option.map_map]
    congr 1
    exact funext fun e => rewiredAt_comm hne target₁ target₂ id e
  · intro c
    rw [h₁₂.connectors, h₁.connectors, h₂₁.connectors, h₂.connectors, Option.map_map,
      Option.map_map]
    congr 1
    exact funext fun k => relisted_comm hne previous₁ target₁ previous₂ target₂ c k
  · rw [h₁₂.order, h₁.order, h₂₁.order, h₂.order]
  · rw [h₁₂.ids, h₁.ids, h₂₁.ids, h₂.ids]
  · rw [h₁₂.nextInput, h₁.nextInput, h₂₁.nextInput, h₂.nextInput]
  · rw [h₁₂.nextOutput, h₁.nextOutput, h₂₁.nextOutput, h₂.nextOutput]
  · rw [h₁₂.provider, h₁.provider, h₂₁.provider, h₂.provider]

theorem Coherent.replaceInput_comm (h : Coherent b) {port₁ port₂ : Port} (hne : port₁ ≠ port₂)
    (target₁ target₂ : ConnectorId) :
    ((b.replaceInput port₁ target₁).2.replaceInput port₂ target₂).2 =
      ((b.replaceInput port₂ target₂).2.replaceInput port₁ target₁).2 := by
  have hplan₁ := h.plan_replaceInput hne target₂ target₁
  have hplan₂ := h.plan_replaceInput (Ne.symm hne) target₁ target₂
  by_cases hmoves₁ : ∃ previous, b.plan port₁ target₁ = .ok (some previous)
  · by_cases hmoves₂ : ∃ previous, b.plan port₂ target₂ = .ok (some previous)
    · -- Both calls have something to do, in either order.
      obtain ⟨previous₁, hmoves₁⟩ := hmoves₁
      obtain ⟨previous₂, hmoves₂⟩ := hmoves₂
      have hc₁ : Coherent (b.replaceInput port₁ target₁).2 := h.replaceInput port₁ target₁
      have hc₂ : Coherent (b.replaceInput port₂ target₂).2 := h.replaceInput port₂ target₂
      obtain ⟨b₁, heq₁, hr₁⟩ := h.replaceInput_of_plan hmoves₁
      obtain ⟨b₂, heq₂, hr₂⟩ := h.replaceInput_of_plan hmoves₂
      rw [heq₁] at hc₁ hplan₂
      rw [heq₂] at hc₂ hplan₁
      obtain ⟨b₁₂, heq₁₂, hr₁₂⟩ := hc₁.replaceInput_of_plan (hplan₂.trans hmoves₂)
      obtain ⟨b₂₁, heq₂₁, hr₂₁⟩ := hc₂.replaceInput_of_plan (hplan₁.trans hmoves₁)
      have hslot : port₁.slot ≠ port₂.slot := by
        intro hslot
        apply hne
        exact Port.eq_of_slot (plan_eq_some_iff.mp hmoves₁).1 (plan_eq_some_iff.mp hmoves₂).1 hslot
      rw [heq₁, heq₂, heq₁₂, heq₂₁]
      exact hr₁.comm hslot hr₁₂ hr₂ hr₂₁
    · have hidle : ¬ ∃ previous,
          (b.replaceInput port₁ target₁).2.plan port₂ target₂ = .ok (some previous) := by
        rwa [hplan₂]
      rw [replaceInput_of_idle hmoves₂, replaceInput_of_idle hidle]
  · have hidle : ¬ ∃ previous,
        (b.replaceInput port₂ target₂).2.plan port₁ target₁ = .ok (some previous) := by
      rwa [hplan₁]
    rw [replaceInput_of_idle hmoves₁, replaceInput_of_idle hidle]

/-! ## What moves -/

/-- An operand that read one connector reads another, and nothing else is different. -/
structure Redirected (b : Body) (port : Port) (previous target : ConnectorId) (b' : Body) :
    Prop where
  operand : ∃ e e', b.expr port.expr = .ok e ∧ b'.expr port.expr = .ok e' ∧
    e.inputConnectors[port.index]? = some previous ∧ e.Repointed port.index target e'
  others : ∀ id, id ≠ port.expr → b'.expr id = b.expr id
  /-- The previous connector loses exactly the operand. -/
  released : ∃ k k', b.connector previous = .ok k ∧ b'.connector previous = .ok k' ∧
    k'.sourcePort = k.sourcePort ∧ port ∈ k.readerPorts ∧
    ∀ reader, reader ∈ k'.readerPorts ↔ reader ≠ port ∧ reader ∈ k.readerPorts
  /-- The other one gains exactly the operand. -/
  gained : ∃ k k', b.connector target = .ok k ∧ b'.connector target = .ok k' ∧
    k'.sourcePort = k.sourcePort ∧ port ∉ k.readerPorts ∧
    ∀ reader, reader ∈ k'.readerPorts ↔ reader = port ∨ reader ∈ k.readerPorts
  elsewhere : ∀ c, c ≠ previous → c ≠ target → b'.connector c = b.connector c
  order : b'.order = b.order
  ids : b'.ids = b.ids
  nextInput : b'.nextInput = b.nextInput
  nextOutput : b'.nextOutput = b.nextOutput
  provider : b'.provider = b.provider

theorem Wired.redirected (h : Wired b) {port : Port}
    (hplan : b.plan port target = .ok (some previous))
    (hr : Rewired b port.slot previous target b') : Redirected b port previous target b' := by
  obtain ⟨hdirection, hreads, hne, hmay⟩ := plan_eq_some_iff.mp hplan
  obtain ⟨kp, hkp, hlisted⟩ := (h.reads_iff port.slot previous).mp hreads
  obtain ⟨kt, hkt, -⟩ := (mayRead_eq_ok_iff h.nodup).mp hmay
  have hat : ∀ c k, b.connectors.get? c = some k →
      b'.connector c = .ok (relisted port.slot previous target c k) := by
    intro c k hk
    rw [connector_eq_ok_iff, hr.connectors, hk]
    rfl
  exact
    { operand := by
        obtain ⟨e, he, hexprs⟩ := hr.exprs
        obtain ⟨e₀, he₀, hc⟩ := hreads
        obtain rfl := Option.some.inj (he.symm.trans he₀)
        refine ⟨e, _, expr_eq_ok_iff.mpr he, ?_, hc, e.repointed port.index target⟩
        rw [expr_eq_ok_iff, hexprs]
        exact OrderedMap.get?_insert_self ..
      others := by
        intro id hid
        obtain ⟨e, -, hexprs⟩ := hr.exprs
        have hid' : id ≠ port.slot.expr := hid
        rw [expr, expr, hexprs, OrderedMap.get?_insert_of_ne _ _ hid']
      released := by
        have hdropped : relisted port.slot previous target previous kp =
            kp.dropReader port.slot := by simp [relisted, hne]
        refine ⟨kp, _, connector_eq_ok_iff.mpr hkp, hat previous kp hkp, ?_, ?_, fun reader => ?_⟩
        · rw [hdropped]
          rfl
        · exact Connector.mem_readerPorts_iff.mpr ⟨hdirection, hlisted⟩
        · rw [hdropped]
          exact Connector.mem_readerPorts_dropReader hdirection
      gained := by
        have hadded : relisted port.slot previous target target kt =
            kt.addReader port.slot := by simp [relisted]
        refine ⟨kt, _, connector_eq_ok_iff.mpr hkt, hat target kt hkt, ?_, ?_, fun reader => ?_⟩
        · rw [hadded]
          rfl
        · intro hmem
          have hlisted := (Connector.mem_readerPorts_iff.mp hmem).2
          exact hne (reads_unique hreads ((h.reads_iff port.slot target).mpr ⟨kt, hkt, hlisted⟩))
        · rw [hadded]
          exact Connector.mem_readerPorts_addReader hdirection
      elsewhere := by
        intro c hprevious htarget
        have hsame : relisted port.slot previous target c = fun k => k :=
          funext fun k => by simp [relisted, hprevious, htarget]
        rw [connector, connector, hr.connectors, hsame]
        cases b.connectors.get? c <;> rfl
      order := hr.order
      ids := hr.ids
      nextInput := hr.nextInput
      nextOutput := hr.nextOutput
      provider := hr.provider }

/-- A call that goes through and finds the operand at another connector has done what it planned. -/
theorem Wired.rewired_of_replaceInput (h : Wired b) {port : Port}
    (hreads : b.Reads port.slot previous) (hne : previous ≠ target)
    (hcall : b.replaceInput port target = (.ok (), b')) :
    b.plan port target = .ok (some previous) ∧ Rewired b port.slot previous target b' := by
  have hrewirable : b.Rewirable port target := by
    rcases h.replaceInput_cases port target with
      ⟨err, -, heq⟩ | ⟨hok, -⟩ | ⟨_, _, hok, -⟩
    · rw [heq] at hcall
      cases hcall
    · exact hok
    · exact hok
  obtain ⟨hdirection, previous', hreads', hmay⟩ := hrewirable
  obtain rfl := reads_unique hreads hreads'
  have hplan : b.plan port target = .ok (some previous) := by
    refine plan_eq_some_iff.mpr ⟨hdirection, hreads, hne, ?_⟩
    exact (mayRead_eq_ok_iff h.nodup).mpr (hmay.resolve_left hne)
  obtain ⟨b'', heq, hrewired⟩ := h.replaceInput_of_plan hplan
  obtain rfl : b'' = b' := congrArg Prod.snd (heq.symm.trans hcall)
  exact ⟨hplan, hrewired⟩

/-- In every body that can come about, a rewiring moves one operand from one connector to another
and touches nothing else, and two rewirings of different operands have the same answers and the same
result in either order. -/
theorem rewirings_commute (h : Reachable b) :
    (∀ port previous target b', b.Reads port.slot previous → previous ≠ target →
      b.replaceInput port target = (.ok (), b') → Redirected b port previous target b') ∧
    ∀ port₁ port₂ target₁ target₂, port₁ ≠ port₂ →
      ((b.replaceInput port₂ target₂).2.replaceInput port₁ target₁).1 =
        (b.replaceInput port₁ target₁).1 ∧
      ((b.replaceInput port₁ target₁).2.replaceInput port₂ target₂).1 =
        (b.replaceInput port₂ target₂).1 ∧
      ((b.replaceInput port₁ target₁).2.replaceInput port₂ target₂).2 =
        ((b.replaceInput port₂ target₂).2.replaceInput port₁ target₁).2 := by
  have hc : Coherent b := h.coherent
  constructor
  · intro port previous target b' hreads hne hcall
    obtain ⟨hplan, hrewired⟩ := hc.rewired_of_replaceInput hreads hne hcall
    exact hc.redirected hplan hrewired
  · intro port₁ port₂ target₁ target₂ hne
    have hanswer : ∀ port other c d, port ≠ other →
        ((b.replaceInput other d).2.replaceInput port c).1 = (b.replaceInput port c).1 := by
      intro port other c d hne
      rw [(hc.replaceInput other d).fst_replaceInput, hc.plan_replaceInput hne,
        hc.fst_replaceInput]
    exact ⟨hanswer _ _ _ _ hne, hanswer _ _ _ _ (Ne.symm hne), hc.replaceInput_comm hne _ _⟩

/-- The difference of two parameters. -/
def difference : Body :=
  (((empty none).after (.push (.make "x" (.parameter .scalar)) [])).after
    (.push (.make "y" (.parameter .scalar)) [])).after
    (.push (.make "z" (.binary .subtract)) [⟨0⟩, ⟨1⟩])

theorem reachable_difference : Reachable difference := .step (.step (.step (.empty none) _) _) _

/-- The two operands of an expression swap their connectors. -/
theorem rewirings_commute_swapped :
    Reachable difference ∧ difference.Reads ⟨⟨2⟩, 0⟩ ⟨0⟩ ∧
      Redirected difference ⟨⟨2⟩, .input, 0⟩ ⟨0⟩ ⟨1⟩
        (difference.replaceInput ⟨⟨2⟩, .input, 0⟩ ⟨1⟩).2 ∧
      ((difference.replaceInput ⟨⟨2⟩, .input, 0⟩ ⟨1⟩).2.replaceInput ⟨⟨2⟩, .input, 1⟩ ⟨0⟩).2 =
        ((difference.replaceInput ⟨⟨2⟩, .input, 1⟩ ⟨0⟩).2.replaceInput ⟨⟨2⟩, .input, 0⟩ ⟨1⟩).2 := by
  have hreads : difference.Reads ⟨⟨2⟩, 0⟩ ⟨0⟩ := ⟨_, rfl, by decide⟩
  have hcall : difference.replaceInput ⟨⟨2⟩, .input, 0⟩ ⟨1⟩ =
      (.ok (), (difference.replaceInput ⟨⟨2⟩, .input, 0⟩ ⟨1⟩).2) := by
    rfl
  obtain ⟨hredirected, hcommute⟩ := rewirings_commute reachable_difference
  exact ⟨reachable_difference, hreads, hredirected _ _ _ _ hreads (by decide) hcall,
    (hcommute _ _ _ _ (by decide)).2.2⟩

end Body

end TensorIR
