import TypedTables.Round

namespace TypedTables.Round

/-- An entity of a round with its model, and the entities that hold one of its files already. -/
structure Share where
  entity : Entity
  model : EntityModel
  owners : List String
  deriving DecidableEq, Repr

/-- Goes through the entities and lets each take its files unless one of them is taken. -/
def shares (config : Config) : Claims → List (Entity × EntityModel) → List Share
  | _, [] => []
  | claims, (e, m) :: rest =>
      let held := owners claims (fileKeys config m)
      let claims := if held = [] then claim claims (fileKeys config m) e.qualifiedName else claims
      ⟨e, m, held⟩ :: shares config claims rest

namespace Share

def linkSteps (packages : List (String × String)) (s : Share) : List Step :=
  (s.model.columns.flatMap (linkNotices packages s.entity s.model)).map Step.tell

def fileSteps (s : Share) : List Step :=
  if s.owners = [] then artifacts.map (.emit s.entity.qualifiedName s.model)
  else [.tell (clashNotice s.entity s.model s.owners)]

def steps (packages : List (String × String)) (s : Share) : List Step :=
  s.linkSteps packages ++ s.fileSteps

end Share

theorem steps_eq_flatMap (config : Config) (packages : List (String × String)) (claims : Claims)
    (built : List (Entity × EntityModel)) :
    steps config packages claims built =
      (shares config claims built).flatMap (Share.steps packages) := by
  induction built generalizing claims with
  | nil => rfl
  | cons p built ih =>
      obtain ⟨e, m⟩ := p
      cases hheld : owners claims (fileKeys config m) with
      | nil => simp [steps, shares, hheld, ih, Share.steps, Share.linkSteps, Share.fileSteps]
      | cons owner others =>
          simp [steps, shares, hheld, ih, Share.steps, Share.linkSteps, Share.fileSteps]

theorem map_shares (config : Config) (claims : Claims) (built : List (Entity × EntityModel)) :
    (shares config claims built).map (fun s => (s.entity, s.model)) = built := by
  induction built generalizing claims with
  | nil => rfl
  | cons p built ih => simp [shares, ih]

def told (plan : List Step) : List Notice :=
  plan.filterMap (fun s => match s with
    | .tell notice => some notice
    | .emit _ _ _ => none)

def emitted (plan : List Step) : List (EntityModel × Artifact) :=
  plan.filterMap (fun s => match s with
    | .tell _ => none
    | .emit _ m a => some (m, a))

theorem told_append (before after : List Step) :
    told (before ++ after) = told before ++ told after :=
  List.filterMap_append

theorem emitted_append (before after : List Step) :
    emitted (before ++ after) = emitted before ++ emitted after :=
  List.filterMap_append

theorem told_tell (notices : List Notice) : told (notices.map .tell) = notices := by
  induction notices with
  | nil => rfl
  | cons notice notices ih => exact congrArg (notice :: ·) ih

theorem emitted_tell (notices : List Notice) : emitted (notices.map .tell) = [] := by
  induction notices with
  | nil => rfl
  | cons notice notices ih => exact ih

theorem told_emit (origin : String) (m : EntityModel) (as : List Artifact) :
    told (as.map (.emit origin m)) = [] := by
  induction as with
  | nil => rfl
  | cons a as ih => exact ih

theorem emitted_emit (origin : String) (m : EntityModel) (as : List Artifact) :
    emitted (as.map (.emit origin m)) = as.map (m, ·) := by
  induction as with
  | nil => rfl
  | cons a as ih => exact congrArg ((m, a) :: ·) ih

theorem told_flatMap {α : Type} (f : α → List Step) (xs : List α) :
    told (xs.flatMap f) = xs.flatMap (fun x => told (f x)) := by
  rw [told, List.filterMap_flatMap]
  rfl

theorem emitted_flatMap {α : Type} (f : α → List Step) (xs : List α) :
    emitted (xs.flatMap f) = xs.flatMap (fun x => emitted (f x)) := by
  rw [emitted, List.filterMap_flatMap]
  rfl

namespace Share

def modules (s : Share) : List (EntityModel × Artifact) :=
  if s.owners = [] then artifacts.map (s.model, ·) else []

def notices (packages : List (String × String)) (s : Share) : List Notice :=
  s.model.columns.flatMap (linkNotices packages s.entity s.model) ++
    if s.owners = [] then [] else [clashNotice s.entity s.model s.owners]

theorem emitted_steps (packages : List (String × String)) (s : Share) :
    emitted (s.steps packages) = s.modules := by
  rw [steps, linkSteps, emitted_append, emitted_tell, List.nil_append, fileSteps, modules]
  split
  · exact emitted_emit _ _ _
  · rfl

theorem told_steps (packages : List (String × String)) (s : Share) :
    told (s.steps packages) = s.notices packages := by
  rw [steps, linkSteps, told_append, told_tell, fileSteps, notices]
  split
  · rw [told_emit]
  · rfl

end Share

end TypedTables.Round
