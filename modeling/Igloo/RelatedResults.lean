import Mathlib.Data.List.Forall2

/-!
# Relating fallible computations

Two runs of a fallible computation agree when they fail with the same error or
both succeed with related values.  Agreement goes through sequencing and
through loops, so a computation of many steps is related to its variant step by
step.  A loop that succeeds is known by the results of its iterations.
-/

namespace Igloo

namespace RelatedResults

universe u

variable {Error : Type*} {First Second FirstNext SecondNext : Type u}

/-- The same error, or related values. -/
inductive Agree (related : First → Second → Prop) :
    Except Error First → Except Error Second → Prop
  | error (error : Error) : Agree related (.error error) (.error error)
  | ok {first : First} {second : Second} (holds : related first second) :
      Agree related (.ok first) (.ok second)

theorem agree_refl (result : Except Error First) : Agree Eq result result := by
  cases result with
  | error error => exact .error error
  | ok value => exact .ok rfl

theorem Agree.mono {related weaker : First → Second → Prop}
    {first : Except Error First} {second : Except Error Second}
    (agree : Agree related first second)
    (implies : ∀ firstValue secondValue, related firstValue secondValue →
      weaker firstValue secondValue) : Agree weaker first second := by
  cases agree with
  | error error => exact .error error
  | ok holds => exact .ok (implies _ _ holds)

theorem Agree.map_left {related : First → Second → Prop}
    {relatedNext : FirstNext → Second → Prop}
    {first : Except Error First} {second : Except Error Second}
    (agree : Agree related first second) {next : First → FirstNext}
    (agreeNext : ∀ firstValue secondValue, related firstValue secondValue →
      relatedNext (next firstValue) secondValue) :
    Agree relatedNext (next <$> first) second := by
  cases agree with
  | error error => exact .error error
  | ok holds => exact .ok (agreeNext _ _ holds)

theorem agree_bind {related : First → Second → Prop}
    {relatedNext : FirstNext → SecondNext → Prop}
    {first : Except Error First} {second : Except Error Second}
    {firstNext : First → Except Error FirstNext}
    {secondNext : Second → Except Error SecondNext}
    (agree : Agree related first second)
    (agreeNext : ∀ firstValue secondValue, related firstValue secondValue →
      Agree relatedNext (firstNext firstValue) (secondNext secondValue)) :
    Agree relatedNext (first >>= firstNext) (second >>= secondNext) := by
  cases agree with
  | error error => exact .error error
  | ok holds => exact agreeNext _ _ holds

theorem agree_bind_of_eq {relatedNext : FirstNext → SecondNext → Prop}
    {first second : Except Error First} (same : first = second)
    {firstNext : First → Except Error FirstNext}
    {secondNext : First → Except Error SecondNext}
    (agreeNext : ∀ value,
      Agree relatedNext (firstNext value) (secondNext value)) :
    Agree relatedNext (first >>= firstNext) (second >>= secondNext) := by
  subst same
  exact agree_bind (agree_refl first) fun _ _ same => same ▸ agreeNext _

theorem agree_mapM {related : First → Second → Prop}
    {relatedNext : FirstNext → SecondNext → Prop}
    {firstBody : First → Except Error FirstNext}
    {secondBody : Second → Except Error SecondNext}
    (agree : ∀ first second, related first second →
      Agree relatedNext (firstBody first) (secondBody second))
    {firsts : List First} {seconds : List Second}
    (items : List.Forall₂ related firsts seconds) :
    Agree (List.Forall₂ relatedNext) (firsts.mapM firstBody)
      (seconds.mapM secondBody) := by
  induction items with
  | nil => exact .ok .nil
  | cons holds items induction =>
      rw [List.mapM_cons, List.mapM_cons]
      refine agree_bind (agree _ _ holds) fun firstValue secondValue here => ?_
      refine agree_bind induction fun firstRest secondRest rest => ?_
      exact .ok (.cons here rest)

/-- A sequence succeeds exactly when both of its steps do. -/
theorem bind_eq_ok_iff {first : Except Error First}
    {next : First → Except Error FirstNext} {last : FirstNext} :
    (first >>= next) = .ok last ↔
      ∃ value, first = .ok value ∧ next value = .ok last := by
  cases first with
  | error error =>
      constructor
      · intro failed
        cases failed
      · rintro ⟨value, failed, -⟩
        cases failed
  | ok value =>
      constructor
      · intro reached
        exact ⟨value, rfl, reached⟩
      · rintro ⟨_, same, reached⟩
        cases same
        exact reached

theorem map_eq_ok_iff {first : Except Error First} {next : First → FirstNext}
    {last : FirstNext} :
    next <$> first = .ok last ↔
      ∃ value, first = .ok value ∧ next value = last := by
  cases first with
  | error error => exact ⟨nofun, nofun⟩
  | ok value =>
      constructor
      · intro reached
        exact ⟨value, rfl, Except.ok.inj reached⟩
      · rintro ⟨_, same, rfl⟩
        cases same
        rfl

/-- A loop over a list succeeds exactly with the results of its iterations. -/
theorem mapM_eq_ok_iff {body : First → Except Error Second}
    {items : List First} {images : List Second} :
    items.mapM body = .ok images ↔
      List.Forall₂ (fun item image => body item = .ok image) items images := by
  constructor
  · intro looped
    induction items generalizing images with
    | nil =>
        cases looped
        exact .nil
    | cons item items induction =>
        rw [List.mapM_cons] at looped
        cases here : body item with
        | error error =>
            rw [here] at looped
            cases looped
        | ok image =>
            cases rest : items.mapM body with
            | error error =>
                rw [here, rest] at looped
                cases looped
            | ok others =>
                rw [here, rest] at looped
                cases looped
                exact .cons here (induction rest)
  · intro each
    induction each with
    | nil => rfl
    | cons here each induction =>
        rw [List.mapM_cons, here, induction]
        rfl

/-- The error of a computation that fails. -/
def errorOf : Except Error First → Option Error
  | .error error => some error
  | .ok _ => none

theorem errorOf_eq_some_iff {result : Except Error First} {error : Error} :
    errorOf result = some error ↔ result = .error error := by
  cases result with
  | error failure => simp [errorOf]
  | ok value => simp [errorOf]

theorem Agree.errorOf_eq {related : First → Second → Prop}
    {first : Except Error First} {second : Except Error Second}
    (agree : Agree related first second) : errorOf first = errorOf second := by
  cases agree <;> rfl

/-- A loop over a list fails with the error of its first iteration that
fails. -/
theorem errorOf_mapM (body : First → Except Error Second)
    (items : List First) :
    errorOf (items.mapM body) =
      items.findSome? fun item => errorOf (body item) := by
  induction items with
  | nil => rfl
  | cons item items induction =>
      rw [List.mapM_cons, List.findSome?_cons, ← induction]
      cases body item with
      | error failure => rfl
      | ok image => cases items.mapM body <;> rfl

theorem mapM_eq_of_forall₂ {Item Other : Type*}
    {body : Item → Except Error Second} {other : Other → Except Error Second}
    {items : List Item} {others : List Other}
    (same : List.Forall₂ (fun first second => body first = other second) items
      others) : items.mapM body = others.mapM other := by
  induction same with
  | nil => rfl
  | cons here same induction =>
      rw [List.mapM_cons, List.mapM_cons, here, induction]

/-- A loop of loops is one loop. -/
theorem flatten_mapM {Item : Type*} (body : First → Except Error Second)
    (split : Item → List First) (items : List Item) :
    List.flatten <$> items.mapM (fun item => (split item).mapM body) =
      (items.flatMap split).mapM body := by
  induction items with
  | nil => rfl
  | cons item items induction =>
      rw [List.mapM_cons, List.flatMap_cons, List.mapM_append, ← induction]
      cases (split item).mapM body with
      | error failure => rfl
      | ok images =>
          cases items.mapM fun item => (split item).mapM body <;> rfl

theorem mapM_eq_some_iff {Item Image : Type u} {body : Item → Option Image}
    {items : List Item} {images : List Image} :
    items.mapM body = some images ↔
      List.Forall₂ (fun item image => body item = some image) items images := by
  constructor
  · intro looped
    induction items generalizing images with
    | nil =>
        cases looped
        exact .nil
    | cons item items induction =>
        rw [List.mapM_cons] at looped
        simp only [Option.bind_eq_bind, Option.bind_eq_some_iff] at looped
        obtain ⟨image, here, others, rest, imagesEq⟩ := looped
        cases imagesEq
        exact .cons here (induction rest)
  · intro each
    induction each with
    | nil => rfl
    | cons here later induction =>
        simp only [List.mapM_cons, here, induction, Option.bind_eq_bind,
          Option.bind_some, Option.pure_def]

theorem isSome_mapM_iff {Item Image : Type u} {body : Item → Option Image}
    {items : List Item} :
    (items.mapM body).isSome ↔ ∀ item ∈ items, (body item).isSome := by
  induction items with
  | nil => simp
  | cons item items induction =>
      rw [List.forall_mem_cons, ← induction, List.mapM_cons]
      cases body item <;> cases items.mapM body <;> simp

theorem exists_forall₂ {Item Image : Type*} {related : Item → Image → Prop}
    {items : List Item} (total : ∀ item ∈ items, ∃ image, related item image) :
    ∃ images, List.Forall₂ related items images := by
  induction items with
  | nil => exact ⟨[], .nil⟩
  | cons item items induction =>
      obtain ⟨image, here⟩ := total item List.mem_cons_self
      obtain ⟨images, rest⟩ := induction fun other otherMem =>
        total other (List.mem_cons_of_mem _ otherMem)
      exact ⟨image :: images, .cons here rest⟩

theorem exists_related_of_mem {Item Image : Type*}
    {related : Item → Image → Prop} {items : List Item} {images : List Image}
    (each : List.Forall₂ related items images) {item : Item}
    (itemMem : item ∈ items) : ∃ image ∈ images, related item image := by
  obtain ⟨index, inItems, rfl⟩ := List.mem_iff_getElem.mp itemMem
  have inImages : index < images.length := each.length_eq ▸ inItems
  exact ⟨images[index], List.getElem_mem inImages, each.get inItems inImages⟩

theorem forall₂_compose {Item : Type*}
    {related : Item → First → Prop} {relatedNext : Item → Second → Prop}
    {items : List Item} {firsts : List First} {seconds : List Second}
    (toFirsts : List.Forall₂ related items firsts)
    (toSeconds : List.Forall₂ relatedNext items seconds) :
    List.Forall₂ (fun first second =>
      ∃ item, related item first ∧ relatedNext item second) firsts seconds := by
  induction toFirsts generalizing seconds with
  | nil =>
      cases toSeconds
      exact .nil
  | cons here toFirsts induction =>
      cases toSeconds with
      | cons hereNext toSeconds =>
          exact .cons ⟨_, here, hereNext⟩ (induction toSeconds)

end RelatedResults

end Igloo
