import TensorIR.Proofs.Body.Provenance
import TensorIR.Proofs.Pipeline.Reordering
import TensorIR.Proofs.Pipeline.Validation
import TensorIR.Proofs.Source.Integers

/-!
# Dynamic dimensions are never invented

If no parameter has a dynamic dimension in a run over built-in operations, then no shape has one
after it, at any port or among the results (`dynamic_never_invented`). Which shapes of parameters
count depends on the run: the given ones if it infers shapes and some were given, and otherwise the
declared ones, of which the text is looked at and not what it comes to. So it is part of the
statement that no integer of a text can be mistaken for a dynamic dimension.

Bodies know where their dimensions come from (`Body.Introduces`). What is left to be shown is that
neither a declared shape nor a rule brings a dynamic dimension, unless the text says so.
-/

set_option autoImplicit false

namespace TensorIR

/-- No dimension is left to the time when the program runs. -/
def Shape.Static (s : Shape) : Prop := Dim.dynamic ∉ s.dims

instance (s : Shape) : Decidable s.Static := inferInstanceAs (Decidable (_ ∉ _))

/-- No shape at a port has a dynamic dimension. -/
def Body.Static (b : Body) : Prop := ∀ port shape, b.shapeAt port = .ok shape → shape.Static

/-- A run up to the pass infers shapes. -/
def Pass.Infers (p : Pass) : Prop := p = .inferShapes ∨ p = .validate

instance (p : Pass) : Decidable p.Infers := inferInstanceAs (Decidable (_ ∨ _))

/-- No parameter has a dynamic dimension in a run up to a pass. Shapes that are given count if the
run infers shapes, and then replace the declared ones. -/
structure Program.StaticParameters (p : Program) (terminal : Pass) (shapes : List Shape) :
    Prop where
  given : terminal.Infers → shapes ≠ [] → ∀ shape ∈ shapes, shape.Static
  declared : ¬ (terminal.Infers ∧ shapes ≠ []) → ∀ s ∈ p.statements, s.op.name = "Parameter" →
    ∀ items span, s.HasAttr "shape" (.dims items span) → ∀ place, .dynamic place ∉ items

/-! ## What statements describe -/

namespace Statement

variable {source : List Char} {program : Program} {s : Statement} {name : String}

theorem HasAttr.ints_subset {value : AttrValue} (h : s.HasAttr name value) :
    value.ints ⊆ Attr.intsOf s.attrs := by
  obtain ⟨before, a, after, hattrs, -, rfl, -⟩ := h
  have ha : a ∈ s.attrs := hattrs ▸ List.mem_append_right _ List.mem_cons_self
  exact fun n hn => List.mem_flatMap.mpr ⟨a, ha, hn⟩

/-- An integer is not read as a dynamic dimension. -/
theorem dim_ne_dynamic_of_token {l : Lexeme} {n : Int} (hl : l ∈ (Source.scan source).lexemes)
    (hn : l.token = .int n) (span : Span) : dim (.fixed n span) ≠ .ok .dynamic := by
  intro hdim
  rw [dim] at hdim
  split at hdim
  · exact ofCode_ne_dynamic_of_token hl hn (Except.ok.inj hdim)
  · cases hdim

section

variable (hparse : (parse source).program = some program) (hs : s ∈ program.statements)
include hparse hs

theorem ofCode_ne_dynamic_of_mem_ints {n : Nat} (hn : (n : Int) ∈ Attr.intsOf s.attrs) :
    Dim.ofCode n ≠ .dynamic := by
  obtain ⟨l, hl, htoken⟩ := areTokens_of_parse hparse hs n hn
  exact ofCode_ne_dynamic_of_token hl htoken

theorem HasCount.ofCode_ne_dynamic {n : Nat} (h : s.HasCount name n) :
    Dim.ofCode n ≠ .dynamic := by
  obtain ⟨span, h⟩ := h
  exact ofCode_ne_dynamic_of_mem_ints hparse hs (h.ints_subset (List.mem_singleton_self _))

/-- A shape is static if its text has no question mark. -/
theorem HasShape.static {shape : Shape} (h : s.HasShape name shape)
    (hnone : ∀ items span, s.HasAttr name (.dims items span) → ∀ place, .dynamic place ∉ items) :
    shape.Static := by
  obtain ⟨items, span, hattr, hdims⟩ := h
  intro hd
  obtain ⟨item, hitem, hmeans⟩ := exists_left_of_forall₂ hdims hd
  cases item with
  | dynamic place => exact hnone items span hattr place hitem
  | fixed m place =>
    generalize hdim : Dim.dynamic = d at hmeans
    cases hmeans with
    | fixed n =>
      refine ofCode_ne_dynamic_of_mem_ints hparse hs (hattr.ints_subset ?_) hdim.symm
      exact List.mem_flatMap.mpr ⟨_, hitem, List.mem_singleton_self _⟩

end

end Statement

/-! ## What a run has made -/

namespace Compilation

variable {program : Program} {provider : Option Provider} {terminal : Pass} {shapes : List Shape}

/-- Checking the body changes nothing, so all runs that infer shapes make the same. -/
theorem compilation_of_infers (h : terminal.Infers) :
    ((start program provider).run terminal shapes).compilation =
      ((start program provider).run .inferShapes shapes).compilation := by
  rcases h with rfl | rfl
  · rfl
  · exact (run_validate_same program provider shapes).2

/-- A run that goes through has inferred the shapes of the lowered body, or it has made no more than
the body. -/
theorem made_of_run (hok : ((start program provider).run terminal shapes).failed = none) :
    ∃ b, Body.ofModel program.model.model provider = .ok b ∧
      if terminal.Infers then ∃ c out, b.inferShapes shapes = (.ok out, c) ∧
        ((start program provider).run terminal shapes).compilation.body = some c ∧
        ((start program provider).run terminal shapes).compilation.resultShapes = some out
      else
        (∀ c, ((start program provider).run terminal shapes).compilation.body = some c → c = b) ∧
        ((start program provider).run terminal shapes).compilation.resultShapes = none := by
  have hclean := clean_of_run hok
  obtain ⟨b, hb, -⟩ := Body.mirrors_ofModel program.wellFormed_model provider
  refine ⟨b, hb, ?_⟩
  split
  next hinfers =>
    obtain ⟨outcome, c, hinfer⟩ : ∃ outcome c, b.inferShapes shapes = (outcome, c) := ⟨_, _, rfl⟩
    cases outcome with
    | error err =>
      have hfailed := (run_of_inferShapes_error hclean hb (congrArg Prod.fst hinfer) hinfers).1
      rw [hok] at hfailed
      cases hfailed
    | ok out =>
      obtain ⟨-, hout, hbody⟩ := run_of_inferShapes_ok hclean hb (congrArg Prod.fst hinfer)
      rw [compilation_of_infers hinfers]
      exact ⟨c, out, hinfer, by rw [hbody, hinfer], hout⟩
  next hnot =>
    cases terminal with
    | buildModel =>
      rw [run, Pass.required_buildModel, runPasses_modelled hclean]
      refine ⟨fun c hc => ?_, rfl⟩
      cases hc
    | lower =>
      have hrequired : Pass.lower.required = [.buildModel, .lower] := Pass.required_eq _
      obtain ⟨b', hb', hrun⟩ := runPasses_rebuilt (c := start program provider) hclean shapes []
      obtain rfl := Except.ok.inj (hb.symm.trans hb')
      rw [run, hrequired, hrun]
      exact ⟨fun c hc => (Option.some.inj hc).symm, rfl⟩
    | inferShapes => exact absurd (.inl rfl) hnot
    | validate => exact absurd (.inr rfl) hnot

end Compilation

/-! ## What is introduced -/

namespace Body

variable {source : List Char} {program : Program} {provider : Option Provider} {b : Body}
  {id : ExprId} {e : Expression} {d : Dim}

/-- In a program without errors every expression stems from a statement. -/
theorem exists_statement (hclean : Diagnostic.anyError program.model.diagnostics = false)
    (hb : ofModel program.model.model provider = .ok b) (he : b.exprs.get? id = some e) :
    ∃ s ∈ program.statements, s.Describes e.node.op ∧
      e.node.outputShapes = Node.declared e.node.op := by
  obtain ⟨b', hb', hmirrors⟩ := mirrors_ofModel program.wellFormed_model provider
  obtain rfl := Except.ok.inj (hb.symm.trans hb')
  obtain ⟨n, hn, hfrom⟩ := hmirrors.node he
  obtain ⟨s, hs⟩ := Program.exists_statement_of_node hclean hn
  obtain ⟨op, refs, hmade, hop, -⟩ := Program.exists_make_of_clean hclean hs
  obtain rfl := Option.some.inj (hn.symm.trans hmade)
  rw [hfrom.node]
  exact ⟨s, List.mem_of_getElem? hs, hop, rfl⟩

/-- What a rule brings is one or an integer of the text, neither of which is dynamic. -/
theorem ne_dynamic_of_brings {s : Statement} {op : Op} {rule : ShapeRule}
    (hparse : (parse source).program = some program) (hs : s ∈ program.statements)
    (hop : s.Describes op) (hside : op.side? ≠ some .input)
    (hrule : ShapeRule.ofOp? op = some rule) (hd : rule.Brings d) : d ≠ .dynamic := by
  cases hop with
  | parameter => exact absurd rfl hside
  | broadcastMove _ hcount =>
    obtain rfl := Option.some.inj hrule
    obtain rfl : d = _ := hd
    exact hcount.ofCode_ne_dynamic hparse hs
  | scalar | reduce =>
    obtain rfl := Option.some.inj hrule
    obtain rfl : d = .one := hd
    exact Dim.noConfusion
  | custom => cases hrule
  | _ =>
    obtain rfl := Option.some.inj hrule
    cases hd

section

variable (hparse : (parse source).program = some program)
  (hclean : Diagnostic.anyError program.model.diagnostics = false)
  (hb : ofModel program.model.model provider = .ok b)
include hparse hclean hb

/-- Rules bring no dynamic dimension. -/
theorem ne_dynamic_of_byRule (hd : b.ByRule d) : d ≠ .dynamic := by
  obtain ⟨id, e, rule, he, hside, hrule, hd⟩ := hd
  obtain ⟨s, hs, hop, -⟩ := exists_statement hclean hb he
  exact ne_dynamic_of_brings hparse hs hop hside hrule hd

/-- Parameters have none either, as long as no question mark is declared. -/
theorem ne_dynamic_of_byParameter
    (hdeclared : ∀ s ∈ program.statements, s.op.name = "Parameter" → ∀ items span,
      s.HasAttr "shape" (.dims items span) → ∀ place, .dynamic place ∉ items)
    (hd : b.ByParameter d) : d ≠ .dynamic := by
  obtain ⟨id, e, he, hside, hd⟩ := hd
  obtain ⟨s, hs, hop, hshapes⟩ := exists_statement hclean hb he
  rw [(asDeclared_ofModel hb).shapes id e he, hshapes] at hd
  cases hop' : e.node.op with
  | parameter shape =>
    rw [hop'] at hop hd
    obtain ⟨found, hfound, hd⟩ := hd
    obtain rfl := List.mem_singleton.mp hfound
    cases hop with
    | parameter hname hshape =>
      rintro rfl
      exact hshape.static hparse hs (hdeclared s hs hname) hd
  | _ =>
    rw [hop'] at hside
    cases hside

end

/-- Without custom operations in the text there are none in the body. -/
theorem builtIn_of_catalogue (hclean : Diagnostic.anyError program.model.diagnostics = false)
    (hb : ofModel program.model.model none = .ok b)
    (hcatalogue : ∀ s ∈ program.statements, s.op.name ≠ "Custom") : BuiltIn b where
  provider := (asDeclared_ofModel hb).provider
  catalogue id e he name inputs outputs hop := by
    obtain ⟨s, hs, hdescribes, -⟩ := exists_statement hclean hb (expr_eq_ok_iff.mp he)
    rw [hop] at hdescribes
    cases hdescribes with
    | custom hname => exact hcatalogue s hs hname

/-- A body is static if it introduces no dynamic dimension. -/
theorem Traced.static (h : b.Traced) (hne : ∀ d, b.Introduces d → d ≠ .dynamic) : b.Static :=
  fun port shape hshape hd => hne _ (h port shape hshape _ hd) rfl

/-- Inference keeps dynamic dimensions out if they are neither given nor brought by a rule. -/
theorem BuiltIn.static_of_ok {c : Body} {shapes out : List Shape} (hbuiltIn : BuiltIn b)
    (h : Coherent b) (hok : b.inferShapes shapes = (.ok out, c))
    (hsources : ∀ d : Dim,
      (if shapes = [] then b.ByParameter d else d.Among shapes) → d ≠ .dynamic)
    (hrules : ∀ d, b.ByRule d → d ≠ .dynamic) : c.Static ∧ ∀ shape ∈ out, shape.Static := by
  obtain ⟨htraced, hresults⟩ := hbuiltIn.traced_of_ok h hok
  have hne : ∀ d, c.Introduces d → d ≠ .dynamic := fun d hd =>
    (h.introduces_of_ok hok hd).elim (hsources d) (hrules d)
  exact ⟨htraced.static hne, fun shape hshape hd => hne _ (hresults _ ⟨shape, hshape, hd⟩) rfl⟩

end Body

namespace Compilation

open Diagnostic (anyError)

/-- In a program that is read from a text and applies operations of the catalogue only, no
dimension is dynamic after a run that goes through unless a parameter has a dynamic dimension: no
dimension at a port, and none among the results, which a run that infers shapes always finds. No
integer of any text is taken for a dynamic dimension. -/
theorem dynamic_never_invented {source : List Char} {program : Program} {terminal : Pass}
    {shapes : List Shape} (hparse : (parse source).program = some program)
    (hcatalogue : ∀ s ∈ program.statements, s.op.name ≠ "Custom")
    (hstatic : program.StaticParameters terminal shapes)
    (hok : ((start program none).run terminal shapes).failed = none) :
    let c := ((start program none).run terminal shapes).compilation
    (∀ b, c.body = some b → b.Static) ∧
      (∀ out, c.resultShapes = some out → ∀ shape ∈ out, shape.Static) ∧
      (terminal.Infers → c.body.isSome ∧ c.resultShapes.isSome) ∧
      ∀ l ∈ (Source.scan source).lexemes, ∀ n, l.token = .int n →
        Dim.ofCode n.toNat ≠ .dynamic ∧ ∀ span, Statement.dim (.fixed n span) ≠ .ok .dynamic := by
  intro c
  have hclean := clean_of_run hok
  obtain ⟨b, hb, hmade⟩ := made_of_run hok
  have hrules : ∀ d, b.ByRule d → d ≠ .dynamic := fun d =>
    Body.ne_dynamic_of_byRule hparse hclean hb
  have hparameters : ¬ (terminal.Infers ∧ shapes ≠ []) → ∀ d, b.ByParameter d → d ≠ .dynamic :=
    fun hnot d => Body.ne_dynamic_of_byParameter hparse hclean hb (hstatic.declared hnot)
  refine and_assoc.mp (and_assoc.mp ⟨?_, fun l hl n hn =>
    ⟨ofCode_ne_dynamic_of_token hl hn, Statement.dim_ne_dynamic_of_token hl hn⟩⟩)
  split at hmade
  next hinfers =>
    obtain ⟨inferred, out, hinfer, hbody, hout⟩ := hmade
    have hcoherent : b.Coherent := (Body.Reachable.lowered hb).coherent
    obtain ⟨hports, hresults⟩ :=
      (Body.builtIn_of_catalogue hclean hb hcatalogue).static_of_ok hcoherent hinfer (fun d => by
        split
        next hnone => exact hparameters (fun hgiven => hgiven.2 hnone) d
        next hgiven =>
          rintro ⟨shape, hshape, hd⟩ rfl
          exact hstatic.given hinfers hgiven shape hshape hd) hrules
    refine ⟨⟨fun b' hb' => ?_, fun found hfound => ?_⟩, fun _ => ?_⟩
    · exact Option.some.inj (hbody.symm.trans hb') ▸ hports
    · exact Option.some.inj (hout.symm.trans hfound) ▸ hresults
    · exact ⟨Option.isSome_of_eq_some hbody, Option.isSome_of_eq_some hout⟩
  next hnot =>
    obtain ⟨hbody, hout⟩ := hmade
    have htraced := Body.traced_ofModel hb fun id e he => by
      obtain ⟨s, -, -, hdeclared⟩ := Body.exists_statement hclean hb he
      exact hdeclared
    have hports := htraced.static fun d hd =>
      hd.elim (hparameters (fun hgiven => hnot hgiven.1) d) (hrules d)
    refine ⟨⟨fun b' hb' => hbody b' hb' ▸ hports, fun found hfound => ?_⟩, fun h => absurd h hnot⟩
    rw [hout] at hfound
    cases hfound

/-- A program that widens rows of one element as far as an integer reaches. -/
def wideningText : List Char :=
  ("x = Parameter[shape=[?, 1]]()\n" ++ "y = BroadcastMove[dim=9223372036854775807](x)\n" ++
    "Result(y)\n").toList

/-- What the text says. -/
def widening : Program where
  statements :=
    [⟨some ⟨"x", ⟨0, 1⟩⟩, ⟨"Parameter", ⟨4, 13⟩⟩,
        [⟨⟨"shape", ⟨14, 19⟩⟩, .dims [.dynamic ⟨21, 22⟩, .fixed 1 ⟨24, 25⟩] ⟨20, 26⟩⟩], [],
        ⟨0, 29⟩⟩,
      ⟨some ⟨"y", ⟨30, 31⟩⟩, ⟨"BroadcastMove", ⟨34, 47⟩⟩,
        [⟨⟨"dim", ⟨48, 51⟩⟩, .int 9223372036854775807 ⟨52, 71⟩⟩], [⟨⟨"x", ⟨73, 74⟩⟩, 0⟩],
        ⟨30, 75⟩⟩,
      ⟨none, ⟨"Result", ⟨76, 82⟩⟩, [], [⟨⟨"y", ⟨83, 84⟩⟩, 0⟩], ⟨76, 85⟩⟩]
  span := ⟨0, 86⟩

/-- With the number of rows given, nothing is left open. -/
theorem dynamic_never_invented_widening :
    (parse wideningText).program = some widening ∧
    (∀ s ∈ widening.statements, s.op.name ≠ "Custom") ∧
    widening.StaticParameters .validate [⟨[.static 2, .static 1]⟩] ∧
    ((start widening none).run .validate [⟨[.static 2, .static 1]⟩]).failed = none ∧
    ((start widening none).run .validate [⟨[.static 2, .static 1]⟩]).compilation.resultShapes =
      some [⟨[.static 2, .static 9223372036854775807]⟩] ∧
    ∀ b, ((start widening none).run .validate
      [⟨[.static 2, .static 1]⟩]).compilation.body = some b → b.Static := by
  have hparse : (parse wideningText).program = some widening := by decide +kernel
  have hcatalogue : ∀ s ∈ widening.statements, s.op.name ≠ "Custom" := by decide +kernel
  have hclean : anyError widening.model.diagnostics = false := by decide +kernel
  have hstatic : widening.StaticParameters .validate [⟨[.static 2, .static 1]⟩] :=
    ⟨fun _ _ => by decide, fun h => absurd ⟨.inr rfl, List.cons_ne_nil _ _⟩ h⟩
  obtain ⟨b, hb, -⟩ := Body.mirrors_ofModel widening.wellFormed_model none
  have hinfer : (b.inferShapes [⟨[.static 2, .static 1]⟩]).1 =
      .ok [⟨[.static 2, .static 9223372036854775807]⟩] := by
    have hlowered : (Body.ofModel widening.model.model none).map
        (fun b => (b.inferShapes [⟨[.static 2, .static 1]⟩]).1) =
          .ok (.ok [⟨[.static 2, .static 9223372036854775807]⟩]) := by decide +kernel
    rw [hb] at hlowered
    exact Except.ok.inj hlowered
  obtain ⟨hfresh, hshapes, -⟩ := run_of_inferShapes_ok hclean hb hinfer
  obtain ⟨hfailed, hsame⟩ := run_validate_same widening none [⟨[.static 2, .static 1]⟩]
  have hok := hfailed.trans hfresh
  obtain ⟨hports, -⟩ := dynamic_never_invented hparse hcatalogue hstatic hok
  exact ⟨hparse, hcatalogue, hstatic, hok, by rw [hsame, hshapes], hports⟩

end Compilation

end TensorIR
