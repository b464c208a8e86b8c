import Rehost.Disk

/-! Which places of a disk an access touches. A path that can be followed leads to the place that its names spell, so
what is written under it changes that place only, and making directories changes the places on the way only. -/
namespace Rehost.Disk

def next (place : Place) (name : Text) : Place :=
  if name = ".." then place.dropLast else place ++ [Utf8.nameBytes name]

/-- The place that the names of a path spell. -/
def placeOf (d : Disk) (p : Path) : Place := p.parts.foldl next (if p.isAbsolute then [] else d.home)

theorem ne_root {d : Disk} {o : Place} (h : d.entryAt o ≠ some .directory) : o ≠ [] := by
  rintro rfl
  exact h (by simp [entryAt])

theorem placeOf_congr {d d' : Disk} (h : d'.home = d.home) (p : Path) : d'.placeOf p = d.placeOf p := by
  rw [placeOf, placeOf, h]

theorem placeOf_concat (d : Disk) (slashes : Nat) (names : List Text) (name : Text) :
    d.placeOf ⟨slashes, names ++ [name]⟩ = next (d.placeOf ⟨slashes, names⟩) name := by
  simp [placeOf, Path.isAbsolute]

theorem step_eq_ok {place place' : Place} {name : Text} (h : step place name = .ok place') :
    place' = next place name := by
  unfold step at h
  split at h
  · next hdots => simpa [next, hdots, eq_comm] using h
  · next hname =>
    split at h
    · contradiction
    · simpa [next, hname, eq_comm] using h

theorem enter_eq_ok {d : Disk} {names : List Text} {place place' : Place} (h : d.enter place names = .ok place') :
    place' = names.foldl next place := by
  induction names generalizing place with
  | nil => simpa [enter, eq_comm] using h
  | cons name names ih =>
    cases hstep : step place name with
    | error f => simp [enter, hstep, bind, Except.bind] at h
    | ok middle =>
      obtain rfl := step_eq_ok hstep
      cases hentry : d.entryAt (next place name) with
      | none => simp [enter, hstep, hentry, bind, Except.bind] at h
      | some e =>
        cases e with
        | file bytes => simp [enter, hstep, hentry, bind, Except.bind] at h
        | directory => exact ih (by simpa [enter, hstep, hentry, bind, Except.bind] using h)

theorem locate_eq_ok {d : Disk} {p : Path} {place : Place} (h : d.locate p = .ok place) : place = d.placeOf p := by
  cases hfault : nameFault? p with
  | some f => simp [locate, hfault] at h
  | none =>
    cases hlast : p.parts.getLast? with
    | none =>
      have hparts : p.parts = [] := List.getLast?_eq_none_iff.1 hlast
      simp only [locate, hfault, hlast, Except.ok.injEq] at h
      rw [← h, placeOf, hparts, List.foldl_nil]
    | some name =>
      obtain ⟨names, hparts⟩ := List.getLast?_eq_some_iff.1 hlast
      simp only [locate, hfault, hlast] at h
      rw [hparts, List.dropLast_concat] at h
      cases henter : d.enter (if p.isAbsolute then [] else d.home) names with
      | error f => simp [henter, bind, Except.bind] at h
      | ok parent =>
        obtain rfl := enter_eq_ok henter
        simp only [henter, bind, Except.bind] at h
        rw [step_eq_ok h, placeOf, hparts, List.foldl_append]
        rfl

theorem enter_of_directories {d d' : Disk} (h : ∀ o, d.entryAt o = some .directory → d'.entryAt o = some .directory)
    {names : List Text} {place place' : Place} (henter : d.enter place names = .ok place') :
    d'.enter place names = .ok place' := by
  induction names generalizing place with
  | nil => exact henter
  | cons name names ih =>
    cases hstep : step place name with
    | error f => simp [enter, hstep, bind, Except.bind] at henter
    | ok middle =>
      cases hentry : d.entryAt middle with
      | none => simp [enter, hstep, hentry, bind, Except.bind] at henter
      | some e =>
        cases e with
        | file bytes => simp [enter, hstep, hentry, bind, Except.bind] at henter
        | directory =>
          have hrest := ih (by simpa [enter, hstep, hentry, bind, Except.bind] using henter)
          simpa [enter, hstep, h _ hentry, bind, Except.bind] using hrest

/-- A path leads to the same place as long as the directories on the way stay. -/
theorem locate_of_directories {d d' : Disk} (hhome : d'.home = d.home)
    (h : ∀ o, d.entryAt o = some .directory → d'.entryAt o = some .directory) {p : Path} {place : Place}
    (hlocate : d.locate p = .ok place) : d'.locate p = .ok place := by
  unfold locate at hlocate ⊢
  rw [hhome]
  cases hfault : nameFault? p with
  | some f => simp [hfault] at hlocate
  | none =>
    cases hlast : p.parts.getLast? with
    | none => simpa [hfault, hlast] using hlocate
    | some name =>
      cases henter : d.enter (if p.isAbsolute then [] else d.home) p.parts.dropLast with
      | error f => simp [hfault, hlast, henter, bind, Except.bind] at hlocate
      | ok parent =>
        simpa [hfault, hlast, henter, enter_of_directories h henter, bind, Except.bind] using hlocate

theorem writable_eq_ok {d : Disk} {p : Path} {place : Place} (h : d.writable p = .ok place) :
    place = d.placeOf p ∧ d.entryAt place ≠ some .directory := by
  cases hlocate : d.locate p with
  | error f => simp [writable, hlocate, bind, Except.bind] at h
  | ok located =>
    simp only [writable, hlocate, bind, Except.bind] at h
    split at h
    · contradiction
    · next hentry =>
      simp only [pure, Except.pure, Except.ok.injEq] at h
      subst h
      exact ⟨locate_eq_ok hlocate, fun hdirectory => hentry hdirectory⟩

theorem write_eq_ok {d d' : Disk} {p : Path} {bytes : Bytes} (h : d.write p bytes = .ok d') :
    d' = d.set (d.placeOf p) (.file bytes) ∧ d.placeOf p ≠ [] := by
  cases hwritable : d.writable p with
  | error f => simp [write, hwritable, Except.map] at h
  | ok place =>
    obtain ⟨rfl, hentry⟩ := writable_eq_ok hwritable
    exact ⟨by simpa [write, hwritable, Except.map, eq_comm] using h, ne_root hentry⟩

theorem writeAt_ne_nil {new old : Bytes} (h : new ≠ [] ∨ old ≠ []) (offset : Nat) : writeAt offset new old ≠ [] := by
  unfold writeAt
  cases new with
  | nil => simpa using h
  | cons b new => simp

/-- A change of a disk that leaves a place as it was. -/
structure Keeps (o : Place) (d d' : Disk) : Prop where
  home : d'.home = d.home
  entry : d'.entryAt o = d.entryAt o

variable {o : Place} {d d' d'' : Disk}

theorem Keeps.refl (d : Disk) : Keeps o d d := ⟨rfl, rfl⟩

theorem Keeps.trans (h : Keeps o d d') (h' : Keeps o d' d'') : Keeps o d d'' :=
  ⟨h'.home.trans h.home, h'.entry.trans h.entry⟩

theorem keeps_set {place : Place} (h : o ≠ place) (e : Entry) : Keeps o d (d.set place e) :=
  ⟨rfl, entryAt_set_of_ne d e h⟩

theorem keeps_write {p : Path} {bytes : Bytes} (h : d.write p bytes = .ok d') (ho : o ≠ d.placeOf p) :
    Keeps o d d' := by
  obtain ⟨rfl, -⟩ := write_eq_ok h
  exact keeps_set ho _

def OnWay (d : Disk) (p : Path) (o : Place) : Prop := ∃ parts, parts <+: p.parts ∧ d.placeOf ⟨p.slashes, parts⟩ = o

instance (d : Disk) (p : Path) (o : Place) : Decidable (d.OnWay p o) :=
  decidable_of_iff ((List.range (p.parts.length + 1)).any
      fun n => decide (d.placeOf ⟨p.slashes, p.parts.take n⟩ = o)) (by
    simp only [List.any_eq_true, List.mem_range, decide_eq_true_eq]
    constructor
    · rintro ⟨n, -, hplace⟩
      exact ⟨_, List.take_prefix n p.parts, hplace⟩
    · rintro ⟨parts, hparts, hplace⟩
      rw [List.prefix_iff_eq_take.1 hparts] at hplace
      exact ⟨parts.length, Nat.lt_succ_of_le hparts.length_le, hplace⟩)

theorem onWay_congr (h : d'.home = d.home) (p : Path) (o : Place) : d'.OnWay p o ↔ d.OnWay p o := by
  simp only [OnWay, placeOf_congr h]

/-- A change of a disk by which no file comes, goes or changes. -/
def SameFiles (d d' : Disk) : Prop := ∀ o bytes, d'.entryAt o = some (.file bytes) ↔ d.entryAt o = some (.file bytes)

theorem SameFiles.refl (d : Disk) : SameFiles d d := fun _ _ => Iff.rfl

theorem SameFiles.trans (h : SameFiles d d') (h' : SameFiles d' d'') : SameFiles d d'' :=
  fun o bytes => (h' o bytes).trans (h o bytes)

theorem sameFiles_set {place : Place} (h : d.entryAt place = none) : SameFiles d (d.set place .directory) := by
  intro o bytes
  by_cases ho : o = place
  · subst ho
    have hroot : o ≠ [] := ne_root (d := d) (by simp [h])
    simp [h, hroot]
  · rw [entryAt_set_of_ne d _ ho]

theorem makeOrKeep_eq_ok {place place' : Place} (h : d.makeOrKeep place = .ok (d', place')) :
    place' = place ∧ d'.home = d.home ∧ (∀ o, o ≠ place → Keeps o d d') ∧ SameFiles d d' := by
  unfold makeOrKeep at h
  split at h
  · next hnone =>
    simp only [Except.ok.injEq, Prod.mk.injEq] at h
    obtain ⟨rfl, rfl⟩ := h
    exact ⟨rfl, rfl, fun o ho => keeps_set ho _, sameFiles_set hnone⟩
  · simp only [Except.ok.injEq, Prod.mk.injEq] at h
    obtain ⟨rfl, rfl⟩ := h
    exact ⟨rfl, rfl, fun o _ => Keeps.refl d, SameFiles.refl d⟩
  · contradiction

/-- What making a directory comes to: a disk that differs on the way to it only, and in directories only, and the place
that its path spells. -/
structure Makes (d : Disk) (p : Path) (result : Disk × Except DiskError Place) : Prop where
  home : result.1.home = d.home
  keeps : ∀ o, ¬ d.OnWay p o → Keeps o d result.1
  files : SameFiles d result.1
  place : ∀ place, result.2 = .ok place → place = d.placeOf p

theorem makes_error (d : Disk) (p : Path) (e : DiskError) : Makes d p (d, .error e) :=
  ⟨rfl, fun o _ => Keeps.refl d, SameFiles.refl d, by simp⟩

theorem self_onWay (d : Disk) (p : Path) : d.OnWay p (d.placeOf p) := ⟨p.parts, List.prefix_refl _, rfl⟩

theorem makes_last {d d₁ : Disk} {p : Path} (hhome : d₁.home = d.home) (hkeeps : ∀ o, ¬ d.OnWay p o → Keeps o d d₁)
    (hfiles : SameFiles d d₁) {x : Except DiskFault Place} (hx : ∀ place, x = .ok place → place = d.placeOf p) :
    Makes d p (match x >>= d₁.makeOrKeep with
      | .ok (d₂, place) => (d₂, .ok place)
      | .error f => (d₁, .error ⟨f, p⟩)) := by
  cases hmade : x >>= d₁.makeOrKeep with
  | error f => exact ⟨hhome, hkeeps, hfiles, by simp⟩
  | ok made =>
    obtain ⟨d₂, place⟩ := made
    cases x with
    | error f => simp [bind, Except.bind] at hmade
    | ok located =>
      obtain rfl := hx located rfl
      obtain ⟨rfl, hhome', hkeeps', hfiles'⟩ := makeOrKeep_eq_ok hmade
      refine ⟨hhome'.trans hhome, fun o ho => ?_, hfiles.trans hfiles', by simp⟩
      exact (hkeeps o ho).trans (hkeeps' o fun heq => ho (heq ▸ d.self_onWay p))

theorem makes_makeFrom (d : Disk) (slashes room : Nat) (reversed : List Text) :
    Makes d ⟨slashes, reversed.reverse⟩ (d.makeFrom slashes room reversed) := by
  induction reversed generalizing room with
  | nil =>
    unfold makeFrom
    exact makes_last rfl (fun o _ => Keeps.refl d) (SameFiles.refl d) fun _ h => locate_eq_ok h
  | cons name names ih =>
    unfold makeFrom
    simp only
    split
    · next name names heq _ =>
      obtain ⟨rfl, rfl⟩ := List.cons.inj heq
      split
      · exact makes_error d _ _
      have ih := ih (room - 1)
      have hway : ∀ o, ¬ d.OnWay ⟨slashes, (name :: names).reverse⟩ o → ¬ d.OnWay ⟨slashes, names.reverse⟩ o := by
        rintro o ho ⟨parts, hparts, rfl⟩
        exact ho ⟨parts, hparts.trans (by simp), rfl⟩
      split
      · next d₁ e hmade =>
        rw [hmade] at ih
        exact ⟨ih.home, fun o ho => ih.keeps o (hway o ho), ih.files, by simp⟩
      · next d₁ parent hmade =>
        rw [hmade] at ih
        refine makes_last ih.home (fun o ho => ih.keeps o (hway o ho)) ih.files fun place hstep => ?_
        rw [step_eq_ok hstep, ih.place parent rfl, List.reverse_cons, placeOf_concat]
    · exact makes_last rfl (fun o _ => Keeps.refl d) (SameFiles.refl d) fun _ h => locate_eq_ok h

theorem makeDirectories_home (d : Disk) (room : Nat) (p : Path) : (d.makeDirectories room p).1.home = d.home :=
  (makes_makeFrom d p.slashes room p.parts.reverse).home

theorem sameFiles_makeDirectories (d : Disk) (room : Nat) (p : Path) : SameFiles d (d.makeDirectories room p).1 :=
  (makes_makeFrom d p.slashes room p.parts.reverse).files

theorem keeps_makeDirectories {room : Nat} {p : Path} (h : ¬ d.OnWay p o) : Keeps o d (d.makeDirectories room p).1 :=
  (makes_makeFrom d p.slashes room p.parts.reverse).keeps o (by simpa using h)

theorem makeDirectories_of_located {room : Nat} {p : Path} {place : Place} (hlocate : d.locate p = .ok place)
    (hentry : d.entryAt place = some .directory) : d.makeDirectories room p = (d, .ok ()) := by
  have hkeep : d.makeOrKeep place = .ok (d, place) := by simp [makeOrKeep, hentry]
  have hlocate' : d.locate ⟨p.slashes, p.parts.reverse.reverse⟩ = .ok place := by rwa [List.reverse_reverse]
  have hmake : d.makeFrom p.slashes room p.parts.reverse = (d, .ok place) := by
    unfold makeFrom
    simp only [hlocate']
    split
    · next h => simp at h
    · simp [bind, Except.bind, hkeep]
  rw [makeDirectories, hmake]
  rfl

end Rehost.Disk
