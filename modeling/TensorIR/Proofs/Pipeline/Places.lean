import TensorIR.Proofs.Model.Places
import TensorIR.Proofs.Pipeline.Rerunning
import TensorIR.Proofs.Source.Viability

/-!
# Where diagnostics point

What a run of passes reports is what building the model reports, or it is about an error of a body,
and then it points at a statement or at the whole program (`mem_log_runPasses`). So whatever is
reported on a program points at places in the program, and those are stretches of its source. The
errors in a text point at tokens, at bad stretches, or at the end of the text.

Hence the places of all diagnostics start between characters. The text before such a place is found,
and its line and column are those of that text and of no other.
-/

set_option autoImplicit false

namespace TensorIR

namespace Compilation

variable {c : Compilation} {shapes : List Shape} {d : Diagnostic}

/-! ## What a run reports -/

theorem spanOf_mem_places (p : Program) (name : String) : spanOf p name ∈ p.places := by
  unfold spanOf
  split
  next s i hfound =>
    have hs : s ∈ p.statements := (List.mem_zipIdx' (List.mem_of_find?_eq_some hfound)).2 ▸
      List.getElem_mem _
    exact List.mem_cons_of_mem _ (List.mem_flatMap.mpr ⟨s, hs, s.span_mem_places⟩)
  next => exact List.mem_cons_self

theorem spans_irDiagnostic (p : Program) (err : IrError) :
    (irDiagnostic p err).spans ⊆ p.places := by
  have hsingle : ∀ {span}, span ∈ p.places → [span] ⊆ p.places := by simp
  unfold irDiagnostic
  split
  · exact hsingle (spanOf_mem_places p _)
  all_goals exact hsingle List.mem_cons_self

theorem mem_reports {α : Type} {p : Program} {outcome : Except IrError α}
    (hd : d ∈ reports p outcome) : ∃ err, d = irDiagnostic p err := by
  cases outcome with
  | ok a => cases hd
  | error err => exact ⟨err, List.mem_singleton.mp hd⟩

theorem mem_runPass {pass : Pass} (hd : d ∈ (c.runPass shapes pass).1) :
    d ∈ c.program.model.diagnostics ∨ ∃ err, d = irDiagnostic c.program err := by
  cases pass with
  | buildModel => exact .inl hd
  | lower => exact .inr (mem_reports hd)
  | inferShapes =>
    simp only [runPass, inferShapes] at hd
    split at hd
    · exact .inr ⟨_, List.mem_singleton.mp hd⟩
    · exact .inr (mem_reports hd)
  | validate => exact .inr (mem_reports hd)

/-- By induction on the passes, of which none changes the program. -/
theorem mem_log_runPasses {passes : List Pass}
    (hd : d ∈ (runPasses shapes c passes).log.flatMap Prod.snd) :
    d ∈ c.program.model.diagnostics ∨ ∃ err, d = irDiagnostic c.program err := by
  induction passes generalizing c with
  | nil => cases hd
  | cons pass passes ih =>
    obtain ⟨ds, c', hrun⟩ : ∃ ds c', c.runPass shapes pass = (ds, c') := ⟨_, _, rfl⟩
    have hfirst : d ∈ ds → d ∈ c.program.model.diagnostics ∨
        ∃ err, d = irDiagnostic c.program err := by
      intro hds
      exact mem_runPass (by rw [hrun]; exact hds)
    cases herror : Diagnostic.anyError ds with
    | true =>
      rw [runPasses_of_error _ hrun herror, List.flatMap_singleton] at hd
      exact hfirst hd
    | false =>
      rw [runPasses_of_ok _ hrun herror, Run.logged, List.flatMap_cons] at hd
      rcases List.mem_append.mp hd with hd | hd
      · exact hfirst hd
      · have hprogram : (c'.collect ds).program = c.program := by
          rw [← c.program_runPass shapes pass, hrun]
          rfl
        rw [← hprogram]
        exact ih hd

end Compilation

/-- The diagnostic is about a program: the building of its model reports it, or a run of passes. -/
inductive Program.Reported (p : Program) : Diagnostic → Prop
  | model {d : Diagnostic} (h : d ∈ p.model.diagnostics) : Reported p d
  | run {d : Diagnostic} (c : Compilation) (terminal : Pass) (shapes : List Shape)
    (hc : c.program = p) (h : d ∈ (c.run terminal shapes).log.flatMap Prod.snd) : Reported p d

/-- The diagnostic is about a text: it says what is wrong with it, or is about the program that it
says. -/
inductive Source.Reported (source : List Char) : Diagnostic → Prop
  | text {err : SourceError} (h : err ∈ (parse source).errors) : Reported source err.diagnostic
  | program {p : Program} {d : Diagnostic} (hp : (parse source).program = some p)
    (h : p.Reported d) : Reported source d

variable {source : List Char} {p : Program} {d : Diagnostic}

theorem Program.Reported.spans_subset (h : p.Reported d) : d.spans ⊆ p.places := by
  have hmodel : ∀ d ∈ p.model.diagnostics, d.spans ⊆ p.places := by
    intro d hd span hspan
    obtain ⟨s, hs, hplace⟩ := p.exists_place_of_diagnostic hd hspan
    exact List.mem_cons_of_mem _ (List.mem_flatMap.mpr ⟨s, hs, hplace⟩)
  cases h with
  | model hd => exact hmodel d hd
  | run c terminal shapes hc hd =>
    subst hc
    rcases Compilation.mem_log_runPasses hd with hd | ⟨err, rfl⟩
    · exact hmodel d hd
    · exact Compilation.spans_irDiagnostic c.program err

/-! ## Where errors in a text are -/

theorem stretch_sourceError {err : SourceError} (h : err ∈ (parse source).errors) :
    Source.Stretch source err.span := by
  have hbad : ∀ err ∈ (Source.scan source).bad.map fun b => SourceError.badText b.text b.span,
      Source.Stretch source err.span := by
    intro err herr
    obtain ⟨b, hb, rfl⟩ := List.mem_map.mp herr
    obtain ⟨-, _, _, hstands, -⟩ := (Source.scan_lossless source).bad b hb
    exact hstands.stretch
  cases hprogram : (parse source).program with
  | some p =>
    simp only [parse] at h hprogram
    split at h
    next statements hread => exact hbad err h
    next stop hread =>
      rw [hread] at hprogram
      cases hprogram
  | none =>
    obtain ⟨stop, hread, herrors⟩ := exists_stop hprogram
    rw [herrors] at h
    rcases List.mem_append.mp h with h | h
    · exact hbad err h
    · obtain rfl := List.mem_singleton.mp h
      rcases cut_readFrom hread with ⟨before, l, after, hls, hfound, -⟩ | ⟨hfound, -⟩
      · rw [hfound]
        exact Source.stretch_lexeme (hls ▸ List.mem_append_right _ List.mem_cons_self)
      · rw [hfound]
        exact Source.stretch_end source

/-! ## Spans in programs and in reports -/

theorem Program.Reported.stretch (hp : (parse source).program = some p) (h : p.Reported d)
    {span : Span} (hspan : span ∈ d.spans) : Source.Stretch source span :=
  stretch_of_place hp (h.spans_subset hspan)

theorem Source.Reported.stretch (h : Source.Reported source d) {span : Span}
    (hspan : span ∈ d.spans) : Source.Stretch source span := by
  cases h with
  | text herr =>
    obtain rfl := List.mem_singleton.mp hspan
    exact stretch_sourceError herr
  | program hp h => exact h.stretch hp hspan

/-- The places in a program that is read are exact, and whatever is reported on the program points
at stretches of the source. -/
theorem places_exact (source : List Char) (p : Program)
    (hp : (parse source).program = some p) :
    p.Exact source ∧
      ∀ d, p.Reported d → ∀ span ∈ d.spans, Source.Stretch source span :=
  ⟨exact_parse hp, fun _ hd _ hspan => hd.stretch hp hspan⟩

/-- A text with comments and a stretch that is no token between its tokens. -/
def gapsText : List Char := "# größe\nx = Parameter[shape=[2, ?]]() £\nRelu(z.1)\n".toList

/-- The program that it says. -/
def gaps : Program where
  statements :=
    [⟨some ⟨"x", ⟨10, 11⟩⟩, ⟨"Parameter", ⟨14, 23⟩⟩, [⟨⟨"shape", ⟨24, 29⟩⟩,
        .dims [.fixed 2 ⟨31, 32⟩, .dynamic ⟨34, 35⟩] ⟨30, 36⟩⟩], [], ⟨10, 39⟩⟩,
      ⟨none, ⟨"Relu", ⟨43, 47⟩⟩, [], [⟨⟨"z", ⟨48, 51⟩⟩, 1⟩], ⟨43, 52⟩⟩]
  span := ⟨9, 53⟩

/-- Offsets count bytes, also of what is skipped; nobody has bound the name of the operand. -/
theorem places_exact_gaps :
    (parse gapsText).program = some gaps ∧ gaps.Exact gapsText ∧
      ∃ d, gaps.Reported d ∧ d.span = ⟨48, 51⟩ ∧ Source.Stretch gapsText d.span := by
  have hparse : (parse gapsText).program = some gaps := by
    decide +kernel
  have hreported : gaps.Reported (Problem.undefinedValue ⟨"z", ⟨48, 51⟩⟩).diagnostic :=
    .model (by decide +kernel)
  obtain ⟨hexact, hstretch⟩ := places_exact gapsText gaps hparse
  exact ⟨hparse, hexact, _, hreported, rfl, hstretch _ hreported _ List.mem_cons_self⟩

/-- A line and a column tell where in a text one is: how many newlines there are before, and how
many bytes since the last. Later places are later in that order, so that no two are the same. All
diagnostics point at such places, and not past the end or into a character. -/
theorem lineColumn_identifies (source : List Char) :
    (∀ before after, source = before ++ after → ∃ line, Source.LastLine before line ∧
      Source.lineColumn source (Source.byteLength before) =
        (1 + before.count '\n', 1 + Source.byteLength line)) ∧
    (∀ o o', Source.CharBoundary source o → Source.CharBoundary source o' → o < o' →
      toLex (Source.lineColumn source o) < toLex (Source.lineColumn source o')) ∧
    (∀ o o', Source.CharBoundary source o → Source.CharBoundary source o' →
      Source.lineColumn source o = Source.lineColumn source o' → o = o') ∧
    ∀ d, Source.Reported source d → ∀ span ∈ d.spans, ∃ before after,
      source = before ++ after ∧ span.start = Source.byteLength before ∧
        Source.before? source span.start = some before := by
  refine ⟨?_, fun o o' => Source.lineColumn_lt, fun o o' => Source.lineColumn_inj, ?_⟩
  · rintro before after rfl
    obtain ⟨line, hline, hplace⟩ := Source.exists_lastLine before
    exact ⟨line, hline, by rw [Source.lineColumn_append, hplace]⟩
  · intro d hd span hspan
    obtain ⟨before, after, rfl, hstart⟩ := (hd.stretch hspan).start
    exact ⟨before, after, rfl, hstart, by rw [hstart, Source.before?_append]⟩

/-- A bad character at the start of the second line, after a character of two bytes in the first. -/
theorem lineColumn_identifies_badText :
    Source.Reported "# é\n£".toList (SourceError.badText ['£'] ⟨5, 7⟩).diagnostic ∧
      Source.lineColumn "# é\n£".toList 5 = (2, 1) ∧
      toLex (Source.lineColumn "# é\n£".toList 4) < toLex (Source.lineColumn "# é\n£".toList 5) ∧
      ∃ before, Source.before? "# é\n£".toList 5 = some before := by
  obtain ⟨-, hlater, -, hfound⟩ := lineColumn_identifies "# é\n£".toList
  have hreported : Source.Reported "# é\n£".toList (SourceError.badText ['£'] ⟨5, 7⟩).diagnostic :=
    .text (by decide +kernel)
  have hend : Source.CharBoundary "# é\n£".toList 4 := ⟨"# é".toList, "\n£".toList, rfl, rfl⟩
  have hstart : Source.CharBoundary "# é\n£".toList 5 := ⟨"# é\n".toList, "£".toList, rfl, rfl⟩
  obtain ⟨before, after, -, -, hbefore⟩ := hfound _ hreported _ List.mem_cons_self
  exact ⟨hreported, by decide +kernel, hlater 4 5 hend hstart (by decide), before, hbefore⟩

end TensorIR
