import TensorIR.CommandLine.Directory

/-!
# Where a stored text ends up

A path that is written either leads to a file of the directory, which may be there already, or the
directory stays as it is (`Leads`, `store_cases`). In the first case the text is what is read
from the same path afterwards, and no other file is any different (`read_write`).

Reading and writing go different ways only where the path ends in a slash, and those paths lead to
no file. On the way to a file there are only directories, and which these are does not depend on
what the files hold.
-/

set_option autoImplicit false

namespace TensorIR.CommandLine

/-! ## Places with a name -/

/-- The name of a file of the directory, which is there or not. -/
def Place.name? : Place → Option String
  | .file name _ => some name
  | .vacant name => name
  | _ => none

theorem Place.name?_ofNames (names : List String) : (Place.ofNames names).name? = none := by
  have hlandmarks : ∀ entry ∈ Place.landmarks, entry.2.name? = none := by decide
  unfold ofNames
  split
  next place hplace =>
    obtain ⟨before, after, hentries, -⟩ := List.lookup_eq_some_iff.mp hplace
    exact hlandmarks (names, place) (hentries ▸ List.mem_append_right _ List.mem_cons_self)
  next => split <;> rfl

namespace Directory

variable {d : Directory} {path name text : String}

/-- The path leads to a file of the directory, which is there or not. -/
def Leads (d : Directory) (path name : String) : Prop :=
  ∃ place, d.locate path Path.stepsToWrite = .ok place ∧ place.name? = some name

theorem content?_write (d : Directory) (name text : String) :
    (d.write name text).content? name = some text := by
  simp [content?, write]

theorem lookup_filter_ne {α : Type} (files : List (String × α)) {other : String}
    (h : other ≠ name) :
    (files.filter fun file => file.1 ≠ name).lookup other = files.lookup other := by
  induction files with
  | nil => rfl
  | cons file files ih =>
    obtain ⟨kept, content⟩ := file
    by_cases hkept : kept = name
    · have hother : (other == name) = false := by simpa using h
      simpa [hkept, List.lookup_cons, hother] using ih
    · simp only [List.filter_cons, hkept, ne_eq, not_false_eq_true, decide_true, if_true,
        List.lookup_cons]
      rw [← ih]

theorem content?_write_of_ne {other : String} (h : other ≠ name) :
    (d.write name text).content? other = d.content? other := by
  have hother : (other == name) = false := by simpa using h
  simp only [content?, write, List.lookup_cons, hother]
  exact lookup_filter_ne d.files h

/-! ## Walking in the directory with the text -/

theorem name?_entry_here (d : Directory) (entry : String) :
    (d.entry .here entry).name? = some entry := by
  simp only [Directory.entry]
  split <;> rfl

theorem name?_entry {place : Place} (h : place ≠ .here) (entry : String) :
    (d.entry place entry).name? = none := by
  cases place with
  | here => exact absurd rfl h
  | outside names => exact Place.name?_ofNames _
  | above | device | file | vacant | nowhere => rfl

theorem name?_parent (place : Place) : place.parent.name? = none := by
  cases place <;> rfl

/-- There is a step only from a directory. -/
theorem name?_of_advance {place next : Place} {step : Step} (h : d.advance place step = .ok next) :
    place.name? = none := by
  cases place with
  | here | above | outside => rfl
  | device | file | vacant | nowhere => simp [advance] at h

theorem advance_down {place next : Place} {entry : String}
    (h : d.advance place (.down entry) = .ok next) :
    d.entry place entry = next ∧
      ∀ e : Directory, e.advance place (.down entry) = .ok (e.entry place entry) := by
  cases place with
  | here | above | outside names =>
    simp only [advance] at h ⊢
    split at h
    · cases h
    next hlength => exact ⟨Except.ok.inj h, fun _ => if_neg hlength⟩
  | device | file | vacant | nowhere => simp [advance] at h

/-- Only the directory of the command has files with names. -/
theorem advance_named {place next : Place} {step : Step} (h : d.advance place step = .ok next)
    (hnext : next.name? = some name) : place = .here ∧ step = .down name := by
  have hplace := name?_of_advance h
  cases step with
  | stay =>
    obtain rfl : place = next := by
      cases place with
      | here | above | outside => exact Except.ok.inj h
      | device | file | vacant | nowhere => simp [advance] at h
    rw [hplace] at hnext
    cases hnext
  | up =>
    obtain rfl : place.parent = next := by
      cases place with
      | here | above | outside => exact Except.ok.inj h
      | device | file | vacant | nowhere => simp [advance] at h
    rw [name?_parent] at hnext
    cases hnext
  | down entry =>
    obtain ⟨rfl, -⟩ := advance_down h
    by_cases hhere : place = .here
    · subst hhere
      rw [name?_entry_here] at hnext
      exact ⟨rfl, by rw [Option.some.inj hnext]⟩
    · rw [name?_entry hhere] at hnext
      cases hnext

/-- A step to the file that is written finds the text. -/
theorem advance_write_named {place next : Place} {step : Step} (h : d.advance place step = .ok next)
    (hnext : next.name? = some name) :
    (d.write name text).advance place step = .ok (.file name text) := by
  obtain ⟨rfl, rfl⟩ := advance_named h hnext
  rw [(advance_down h).2]
  simp only [Directory.entry, content?_write]

/-- Any other step leads to the same place. -/
theorem advance_write {place next : Place} {step : Step} (h : d.advance place step = .ok next)
    (hnext : next.name? = none) : (d.write name text).advance place step = .ok next := by
  cases step with
  | stay => exact h
  | up => exact h
  | down entry =>
    obtain ⟨hentry, hadvance⟩ := advance_down h
    have hplace : place ≠ .here := by
      rintro rfl
      rw [← hentry, name?_entry_here] at hnext
      cases hnext
    have hsame : (d.write name text).entry place entry = d.entry place entry := by
      cases place with
      | here => exact absurd rfl hplace
      | above | outside | device | file | vacant | nowhere => rfl
    rw [hadvance, hsame, hentry]

theorem walk_of_named {place final : Place} {steps : List Step} (hnamed : place.name? = some name)
    (h : d.walk place steps = .ok final) : steps = [] := by
  cases steps with
  | nil => rfl
  | cons step steps =>
    rw [walk] at h
    cases hnext : d.advance place step with
    | error err => rw [hnext] at h; cases h
    | ok next =>
      rw [name?_of_advance hnext] at hnamed
      cases hnamed

theorem walk_write {place final : Place} {steps : List Step} (hplace : place.name? = none)
    (h : d.walk place steps = .ok final) (hfinal : final.name? = some name) :
    (d.write name text).walk place steps = .ok (.file name text) := by
  induction steps generalizing place with
  | nil =>
    obtain rfl := Except.ok.inj h
    rw [hplace] at hfinal
    cases hfinal
  | cons step steps ih =>
    rw [walk] at h
    cases hnext : d.advance place step with
    | error err => rw [hnext] at h; cases h
    | ok next =>
      rw [hnext] at h
      cases hname : next.name? with
      | none =>
        rw [walk, advance_write hnext hname]
        exact ih hname h
      | some found =>
        -- From a file there is no further step, so this one was the last.
        obtain rfl := walk_of_named hname h
        obtain rfl := Except.ok.inj h
        rw [walk, advance_write_named hnext hfinal]
        rfl

/-! ## Reading what was stored -/

theorem name?_walk_stay {place final : Place} {steps : List Step}
    (h : d.walk place (steps ++ [.stay]) = .ok final) : final.name? = none := by
  induction steps generalizing place with
  | nil =>
    rw [List.nil_append, walk] at h
    cases hnext : d.advance place .stay with
    | error err => rw [hnext] at h; cases h
    | ok next =>
      rw [hnext] at h
      obtain rfl := Except.ok.inj h
      cases hname : next.name? with
      | none => rfl
      | some found => cases (advance_named hnext hname).2
  | cons step steps ih =>
    rw [List.cons_append, walk] at h
    cases hnext : d.advance place step with
    | error err => rw [hnext] at h; cases h
    | ok next =>
      rw [hnext] at h
      exact ih h

/-- What is stored at a path that leads to a file is read from the path. -/
theorem read_write (h : d.Leads path name) : (d.write name text).read path = .ok text := by
  obtain ⟨place, hlocate, hname⟩ := h
  unfold locate at hlocate
  cases hpath : Path.read path with
  | error err => rw [hpath] at hlocate; cases hlocate
  | ok p =>
    rw [hpath] at hlocate
    simp only at hlocate
    have hstart : (if p.fromRoot then Place.root else .here).name? = none := by split <;> rfl
    -- Only with a slash at the end do the steps differ, and then they lead to no file.
    have hsteps : p.stepsToRead = p.stepsToWrite := by
      cases hslash : p.endsInSlash with
      | false => rw [Path.stepsToRead, Path.stepsToWrite, hslash]; rfl
      | true =>
        rw [Path.stepsToWrite, if_pos hslash] at hlocate
        rw [name?_walk_stay hlocate] at hname
        cases hname
    rw [read, locate, hpath]
    simp only [hsteps, walk_write hstart hlocate hname]

/-! ## What a directory is like after a text was stored -/

variable {next : Directory} {stream : Option Stream}

theorem store_of_leads (h : d.Leads path name) :
    d.store path text = .ok (d.write name text, none) := by
  obtain ⟨place, hlocate, hname⟩ := h
  rw [store, hlocate]
  cases place with
  | file name' content => obtain rfl := Option.some.inj hname; rfl
  | vacant name' => obtain rfl := hname; rfl
  | here | above | outside | device | nowhere => cases hname

/-- A text shows on the standard output only through the device that stands for it. -/
theorem write_eq_output_iff {device : Device} (h : device.write text = .ok stream) :
    stream = some .output ↔ device = .own .output := by
  cases device with
  | terminal => cases h
  | own shown =>
    obtain rfl := Except.ok.inj h
    simp
  | null | input =>
    obtain rfl := Except.ok.inj h
    simp
  | full =>
    simp only [Device.write] at h
    split at h
    · obtain rfl := Except.ok.inj h
      simp
    · cases h

/-- A text that could be stored is in a file of the directory, or the directory is as it was. -/
theorem store_cases (hstore : d.store path text = .ok (next, stream)) :
    (∃ name, d.Leads path name ∧ next = d.write name text ∧ stream = none) ∨
    (∀ name, ¬ d.Leads path name) ∧ next = d ∧ ∃ place,
      d.locate path Path.stepsToWrite = .ok place ∧
        (stream = some .output ↔ place = .device (.own .output)) := by
  cases hlocate : d.locate path Path.stepsToWrite with
  | error err => rw [store, hlocate] at hstore; cases hstore
  | ok place =>
    cases hname : place.name? with
    | some name =>
      have hleads : d.Leads path name := ⟨place, hlocate, hname⟩
      rw [store_of_leads hleads] at hstore
      cases hstore
      exact .inl ⟨name, hleads, rfl, rfl⟩
    | none =>
      refine .inr ⟨?_, ?_⟩
      · rintro name ⟨place', hlocate', hname'⟩
        obtain rfl := Except.ok.inj (hlocate.symm.trans hlocate')
        rw [hname] at hname'
        cases hname'
      · rw [store, hlocate] at hstore
        cases place with
        | file name content => cases hname
        | vacant name =>
          obtain rfl : name = none := hname
          cases hstore
          exact ⟨rfl, _, rfl, by simp⟩
        | device device =>
          have hmap : (device.write text).map (fun stream => (d, stream)) = .ok (next, stream) :=
            hstore
          cases hwrite : device.write text with
          | error err => rw [hwrite] at hmap; cases hmap
          | ok shown =>
            rw [hwrite] at hmap
            cases hmap
            exact ⟨rfl, _, rfl, by rw [write_eq_output_iff hwrite, Place.device.injEq]⟩
        | here | above | outside | nowhere => cases hstore

/-- A stored text shows on the standard output if and only if this is where the path leads. -/
theorem stream_eq_output_iff (hstore : d.store path text = .ok (next, stream)) :
    stream = some .output ↔ d.locate path Path.stepsToWrite = .ok (.device (.own .output)) := by
  rcases store_cases hstore with
    ⟨name, ⟨place, hlocate, hname⟩, -, rfl⟩ | ⟨-, -, place, hlocate, hstream⟩
  · rw [hlocate, Except.ok.injEq]
    constructor
    · intro h
      cases h
    · rintro rfl
      cases hname
  · rw [hlocate, Except.ok.injEq, hstream]

end Directory

end TensorIR.CommandLine
