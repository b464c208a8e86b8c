import Rehost.Proofs.Table
import Rehost.Settings.Basic

/-! One layer of settings on another. What settings hold is read field by field, in the form in which a layer could give
it. A layer is accepted if it names fields only and each of them takes what it is given; then every field that it names
holds just that, and all others hold what they held. -/
namespace Rehost.Settings

def held (s : Settings) : Field → Given
  | .inputPath => .path s.inputPath
  | .outputPath => .path s.outputPath
  | .origin => .text s.origin
  | .artifacts => s.artifacts.elim .null .path
  | .reportPath => s.reportPath.elim .null .path

theorem eq_of_held {s s' : Settings} (h : ∀ f, s.held f = s'.held f) : s = s' := by
  have helim : ∀ {p q : Option Path}, p.elim Given.null .path = q.elim .null .path → p = q := by
    rintro (_ | p) (_ | q) hpq
    · rfl
    · contradiction
    · contradiction
    · exact congrArg some (Given.path.inj hpq)
  obtain ⟨input, output, origin, artifacts, report⟩ := s
  obtain rfl := Given.path.inj (h .inputPath)
  obtain rfl := Given.path.inj (h .outputPath)
  obtain rfl := Given.text.inj (h .origin)
  obtain rfl := helim (h .artifacts)
  obtain rfl := helim (h .reportPath)
  rfl

namespace Field

def isOptional : Field → Bool
  | artifacts | reportPath => true
  | _ => false

/-- What a field takes: a text that is not empty, a path if it is one, and nothing if it may be without a value. -/
def Takes (f : Field) : Given → Prop
  | .null => f.isOptional = true
  | .text s => s ≠ []
  | .path _ => f ≠ .origin
  | .other _ => False

instance (f : Field) : (g : Given) → Decidable (f.Takes g)
  | .null => inferInstanceAs (Decidable (_ = _))
  | .text _ => inferInstanceAs (Decidable (_ ≠ _))
  | .path _ => inferInstanceAs (Decidable (_ ≠ _))
  | .other _ => inferInstanceAs (Decidable False)

/-- What a field holds once it has taken something. All texts but the origin are paths. -/
def taken (f : Field) : Given → Given
  | .text s => if f = .origin then .text s else .path (.ofText s)
  | g => g

variable {f : Field} {g : Given} {key : Text}

theorem named?_eq_some_iff : named? key = some f ↔ f.name = key := by
  constructor
  · intro h
    simpa using List.find?_some h
  · rintro rfl
    exact named?_name f

theorem name_injective {f f' : Field} (h : f.name = f'.name) : f = f' := by
  have hnamed := named?_name f
  rw [h, named?_name] at hnamed
  exact (Option.some.inj hnamed).symm

theorem path_eq_ok_iff {p : Path} (hf : f ≠ .origin) : f.path g = .ok p ↔ f.Takes g ∧ f.taken g = .path p := by
  cases g with
  | null => cases f <;> simp [path, taken]
  | text s => cases s <;> simp [path, Takes, taken, hf]
  | path q => simp [path, Takes, taken, hf]
  | other kind => simp [path, Takes]

theorem path?_eq_ok_iff {p : Option Path} (hf : f.isOptional = true) :
    f.path? g = .ok p ↔ f.Takes g ∧ f.taken g = p.elim .null .path := by
  have hne : f ≠ .origin := by
    rintro rfl
    contradiction
  have hpath : (f.path g).map some = .ok p ↔ ∃ q, f.path g = .ok q ∧ some q = p := by
    cases f.path g <;> simp [Except.map]
  cases g with
  | null => cases p <;> simp [path?, Takes, taken, hf]
  | text s =>
    rw [show f.path? (.text s) = (f.path (.text s)).map some from rfl, hpath]
    simp only [path_eq_ok_iff hne]
    cases p <;> simp [taken, hne]
  | path q =>
    rw [show f.path? (.path q) = (f.path (.path q)).map some from rfl, hpath]
    simp only [path_eq_ok_iff hne]
    cases p <;> simp [taken]
  | other kind =>
    rw [show f.path? (.other kind) = (f.path (.other kind)).map some from rfl, hpath]
    simp [path_eq_ok_iff hne, Takes]

theorem taken_of_takes? (hf : f ≠ .origin) (h : f.Takes g) : ∃ p : Option Path, f.taken g = p.elim .null .path := by
  cases g with
  | null => exact ⟨none, rfl⟩
  | text s => exact ⟨some (.ofText s), if_neg hf⟩
  | path p => exact ⟨some p, rfl⟩
  | other kind => exact h.elim

theorem taken_of_takes (hf : f ≠ .origin) (hneeded : f.isOptional = false) (h : f.Takes g) :
    ∃ p, f.taken g = .path p := by
  obtain ⟨_ | p, hp⟩ := taken_of_takes? hf h
  · cases g <;> simp_all [taken, Takes]
  · exact ⟨p, hp⟩

end Field

theorem originOf_eq_ok_iff {g : Given} {t : Text} :
    originOf g = .ok t ↔ Field.origin.Takes g ∧ Field.origin.taken g = .text t := by
  cases g with
  | null => simp [originOf, Field.Takes, Field.isOptional]
  | text s => cases s <;> simp [originOf, Field.Takes, Field.taken]
  | path p => simp [originOf, Field.Takes]
  | other kind => simp [originOf, Field.Takes]

/-- A change is made exactly if it is allowed, and then shows as it should. -/
def Decides (allowed : Prop) (shown : Field → Given) (x : Except SettingsError Settings) : Prop :=
  (allowed ∧ ∃ s, x = .ok s ∧ ∀ f, s.held f = shown f) ∨ (¬ allowed ∧ ∃ e, x = .error e)

variable {s : Settings} {f : Field} {g : Given}

theorem decides_map {α : Type} {x : Except SettingsError α} {update : α → Settings} {given : α → Given}
    (hx : ∀ a, x = .ok a ↔ f.Takes g ∧ f.taken g = given a) (hgiven : f.Takes g → ∃ a, f.taken g = given a)
    (hupdate : ∀ a f', (update a).held f' = if f' = f then given a else s.held f') :
    Decides (f.Takes g) (fun f' => if f' = f then f.taken g else s.held f') (x.map update) := by
  by_cases htakes : f.Takes g
  · obtain ⟨a, htaken⟩ := hgiven htakes
    refine .inl ⟨htakes, update a, ?_, fun f' => by rw [hupdate, htaken]⟩
    rw [(hx a).2 ⟨htakes, htaken⟩]
    rfl
  · refine .inr ⟨htakes, ?_⟩
    cases hvalue : x with
    | error e => exact ⟨e, rfl⟩
    | ok a => exact absurd ((hx a).1 hvalue).1 htakes

theorem decides_set (s : Settings) (g : Given) (f : Field) :
    Decides (f.Takes g) (fun f' => if f' = f then f.taken g else s.held f') (s.set g f) := by
  cases f with
  | inputPath =>
    refine decides_map (fun p => Field.path_eq_ok_iff (by decide)) (Field.taken_of_takes (by decide) rfl) ?_
    intro p f'
    cases f' <;> rfl
  | outputPath =>
    refine decides_map (fun p => Field.path_eq_ok_iff (by decide)) (Field.taken_of_takes (by decide) rfl) ?_
    intro p f'
    cases f' <;> rfl
  | origin =>
    refine decides_map (fun t => originOf_eq_ok_iff) (fun htakes => ?_) ?_
    · cases g with
      | text t => exact ⟨t, rfl⟩
      | null | path _ | other _ => simp [Field.Takes, Field.isOptional] at htakes
    · intro t f'
      cases f' <;> rfl
  | artifacts =>
    refine decides_map (fun p => Field.path?_eq_ok_iff rfl) (Field.taken_of_takes? (by decide)) ?_
    intro p f'
    cases f' <;> rfl
  | reportPath =>
    refine decides_map (fun p => Field.path?_eq_ok_iff rfl) (Field.taken_of_takes? (by decide)) ?_
    intro p f'
    cases f' <;> rfl

/-! All entries of a layer. -/

def layered (s : Settings) (t : Table Given) (f : Field) : Given :=
  ((Table.get? f.name t).map f.taken).getD (s.held f)

/-- Every entry names a field, and that takes it. -/
def Accepted (t : Table Given) : Prop := ∀ key g, Table.get? key t = some g → ∃ f : Field, f.name = key ∧ f.Takes g

theorem get?_cons_name (f f' : Field) (g : Given) (t : Table Given) :
    Table.get? f'.name ((f.name, g) :: t) = if f' = f then some g else Table.get? f'.name t := by
  by_cases h : f' = f
  · rw [if_pos h, h]
    exact if_pos rfl
  · rw [if_neg h]
    exact if_neg fun heq => h (Field.name_injective heq.symm)

theorem decides_setAll (s : Settings) {t : Table Given} (h : (Table.keys t).Nodup) :
    Decides (∀ f g, Table.get? (Field.name f) t = some g → f.Takes g) (s.layered t) (s.setAll t) := by
  induction t generalizing s with
  | nil => exact .inl ⟨by simp, s, rfl, fun f => rfl⟩
  | cons e t ih =>
    obtain ⟨key, g⟩ := e
    obtain ⟨hkey, ht⟩ := List.nodup_cons.1 h
    rw [setAll]
    cases hnamed : Field.named? key with
    | none =>
      have hget : ∀ f : Field, Table.get? f.name ((key, g) :: t) = Table.get? f.name t := by
        intro f
        refine if_neg fun heq => ?_
        rw [heq, Field.named?_name] at hnamed
        contradiction
      have hshown : s.layered ((key, g) :: t) = s.layered t := funext fun f => by rw [layered, layered, hget]
      simp only [hget, hshown]
      exact ih s ht
    | some f =>
      obtain rfl := Field.named?_eq_some_iff.1 hnamed
      have hnew : Table.get? f.name t = none := Table.get?_eq_none_iff.2 hkey
      rcases decides_set s g f with ⟨htakes, s₁, hset, hheld⟩ | ⟨hnot, e, hset⟩
      · have hallowed : (∀ f' g', Table.get? (Field.name f') ((f.name, g) :: t) = some g' → f'.Takes g') ↔
            ∀ f' g', Table.get? (Field.name f') t = some g' → f'.Takes g' := by
          refine forall_congr' fun f' => ?_
          by_cases hf : f' = f
          · subst hf
            simp [get?_cons_name, hnew, htakes]
          · simp [get?_cons_name, hf]
        have hshown : s.layered ((f.name, g) :: t) = s₁.layered t := by
          funext f'
          by_cases hf : f' = f
          · subst hf
            simp [layered, get?_cons_name, hnew, hheld]
          · simp [layered, get?_cons_name, hheld, hf]
        simp only [hset, hallowed, hshown]
        exact ih s₁ ht
      · simp only [hset]
        exact .inr ⟨fun hall => hnot (hall f g (by simp [get?_cons_name])), e, rfl⟩

/-! Keys. -/

def named (es : List (Text × Given)) : List (Given × Given) := es.map fun e => (.text e.1, e.2)

theorem keyed_named (es : List (Text × Given)) : keyed (named es) = .ok es := by
  induction es with
  | nil => rfl
  | cons e es ih =>
    rw [named] at ih
    simp [named, keyed, ih, Except.map]

theorem keyed_cases (entries : List (Given × Given)) :
    (∃ es, entries = named es) ∨ ((∃ e ∈ entries, ∀ key, e.1 ≠ .text key) ∧ keyed entries = .error .mixedKeys) := by
  induction entries with
  | nil => exact .inl ⟨[], rfl⟩
  | cons e entries ih =>
    obtain ⟨k, g⟩ := e
    cases k with
    | text key =>
      rcases ih with ⟨es, rfl⟩ | ⟨⟨e, he, hkey⟩, herror⟩
      · exact .inl ⟨(key, g) :: es, rfl⟩
      · exact .inr ⟨⟨e, List.mem_cons_of_mem _ he, hkey⟩, by simp [keyed, herror, Except.map]⟩
    | null => exact .inr ⟨⟨_, List.mem_cons_self, by simp⟩, rfl⟩
    | path p => exact .inr ⟨⟨_, List.mem_cons_self, by simp⟩, rfl⟩
    | other kind => exact .inr ⟨⟨_, List.mem_cons_self, by simp⟩, rfl⟩

theorem unknownKeys_eq_nil_iff {t : Table Given} : unknownKeys t = [] ↔ ∀ key ∈ Table.keys t, ∃ f : Field, f.name = key := by
  rw [unknownKeys, ← List.length_eq_zero_iff, List.length_mergeSort, List.length_eq_zero_iff, List.filter_eq_nil_iff]
  refine forall₂_congr fun key _ => ?_
  cases hnamed : Field.named? key with
  | none => simp [← Field.named?_eq_some_iff, hnamed]
  | some f => simp [← Field.named?_eq_some_iff, hnamed]

/-! A layer. -/

theorem accepted_iff {t : Table Given} : Accepted t ↔
    (∀ key ∈ Table.keys t, ∃ f : Field, f.name = key) ∧ ∀ f g, Table.get? (Field.name f) t = some g → f.Takes g := by
  constructor
  · intro h
    refine ⟨fun key hkey => ?_, fun f g hg => ?_⟩
    · cases hget : Table.get? key t with
      | none => exact absurd hkey (Table.get?_eq_none_iff.1 hget)
      | some g => exact (h key g hget).imp fun f hf => hf.1
    · obtain ⟨f', hname, htakes⟩ := h _ g hg
      exact Field.name_injective hname ▸ htakes
  · rintro ⟨hkeys, htakes⟩ key g hg
    have hkey : key ∈ Table.keys t := by
      by_contra hnot
      simp [Table.get?_eq_none_iff.2 hnot] at hg
    obtain ⟨f, rfl⟩ := hkeys key hkey
    exact ⟨f, rfl, htakes f g hg⟩

theorem decides_override (s : Settings) (es : List (Text × Given)) :
    ∃ x, s.override (named es) = Except.mapError .settings x ∧
      Decides (Accepted (Table.ofList es)) (s.layered (Table.ofList es)) x := by
  rw [accepted_iff, ← unknownKeys_eq_nil_iff]
  cases hunknown : unknownKeys (Table.ofList es) with
  | nil =>
    refine ⟨s.setAll (Table.ofList es), ?_, by simpa using decides_setAll s (Table.nodup_keys_ofList es)⟩
    simp only [override, keyed_named, bind, Except.bind, hunknown]
  | cons name names =>
    refine ⟨.error (.unknownKeys (name :: names)), ?_, .inr ⟨by simp, _, rfl⟩⟩
    simp only [override, keyed_named, bind, Except.bind, hunknown]
    rfl

theorem override_unkeyed (s : Settings) {entries : List (Given × Given)} (h : ∃ e ∈ entries, ∀ key, e.1 ≠ .text key) :
    s.override entries = .error .mixedKeys := by
  rcases keyed_cases entries with ⟨es, rfl⟩ | ⟨-, herror⟩
  · obtain ⟨e, he, hkey⟩ := h
    obtain ⟨e', -, rfl⟩ := List.mem_map.1 he
    exact absurd rfl (hkey e'.1)
  · rw [override, herror]
    rfl

theorem override_eq_error {s : Settings} {entries : List (Given × Given)} {f : Failure}
    (h : s.override entries = .error f) : f = .mixedKeys ∨ ∃ e, f = .settings e := by
  rcases keyed_cases entries with ⟨es, rfl⟩ | ⟨hunkeyed, -⟩
  · obtain ⟨x, hx, -⟩ := decides_override s es
    cases x with
    | ok s' => simp [hx, Except.mapError] at h
    | error e => exact .inr ⟨e, Except.error.inj (h.symm.trans hx)⟩
  · exact .inl (Except.error.inj (h.symm.trans (override_unkeyed s hunkeyed)))

end Rehost.Settings
