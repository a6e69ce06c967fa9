import AsmLink.Host.World
import AsmLink.Proofs.Lockstep

/-! Where paths lead. Trees that agree off some places, with no directory at those, resolve paths alike
(`FileTree.AgreeOff.walk`, `locate`) and hold the same for all paths that do not lead there (`read`).
Opening a file for writing and writing to it keep a tree the same off the place of that file. -/

namespace AsmLink

namespace FileTree

variable {tree other : FileTree} {places : Location → Prop} {path : Text} {place : Location}

/-- Whether a path leads to a place. -/
def LeadsTo (tree : FileTree) (path : Text) (place : Location) : Prop :=
  tree.walk path (path.splitOn '/') = .ok place

theorem read_of_leadsTo (h : tree.LeadsTo path place) {content : Bytes}
    (hnode : tree.node? place = some (.file content)) : tree.read path = .ok content := by
  rw [LeadsTo] at h
  rw [read, h]
  simp only [bind, Except.bind, hnode]

/-- Whether trees agree but for some places, none of which is a directory in either. -/
structure AgreeOff (places : Location → Prop) (tree other : FileTree) : Prop where
  workDirectory : tree.workDirectory = other.workDirectory
  node? : ∀ place, ¬ places place → tree.node? place = other.node? place
  left : ∀ place, places place → tree.node? place ≠ some .directory
  right : ∀ place, places place → other.node? place ≠ some .directory

namespace AgreeOff

theorem refl (h : ∀ place, places place → tree.node? place ≠ some .directory) :
    tree.AgreeOff places tree :=
  ⟨rfl, fun _ _ => rfl, h, h⟩

theorem put_right (h : tree.AgreeOff places other) (hplace : places place) {node : Node}
    (hnode : node ≠ .directory) : tree.AgreeOff places (other.put place node) where
  workDirectory := h.workDirectory
  node? elsewhere helsewhere := by
    have hne : elsewhere ≠ place := fun heq => helsewhere (heq ▸ hplace)
    rw [node?_put_of_ne _ _ hne, h.node? _ helsewhere]
  left := h.left
  right elsewhere helsewhere := by
    by_cases hne : elsewhere = place
    · simpa [hne] using hnode
    · rw [node?_put_of_ne _ _ hne]
      exact h.right _ helsewhere

theorem put (h : tree.AgreeOff places other) (hplace : ¬ places place) (node : Node) :
    (tree.put place node).AgreeOff places (other.put place node) where
  workDirectory := h.workDirectory
  node? elsewhere helsewhere := by
    by_cases hne : elsewhere = place
    · simp [hne]
    · rw [node?_put_of_ne _ _ hne, node?_put_of_ne _ _ hne, h.node? _ helsewhere]
  left elsewhere helsewhere := by
    have hne : elsewhere ≠ place := fun heq => hplace (heq ▸ helsewhere)
    rw [node?_put_of_ne _ _ hne]
    exact h.left _ helsewhere
  right elsewhere helsewhere := by
    have hne : elsewhere ≠ place := fun heq => hplace (heq ▸ helsewhere)
    rw [node?_put_of_ne _ _ hne]
    exact h.right _ helsewhere

theorem directory_iff (h : tree.AgreeOff places other) (place : Location) :
    tree.node? place = some .directory ↔ other.node? place = some .directory := by
  by_cases hplace : places place
  · exact iff_of_false (h.left place hplace) (h.right place hplace)
  · rw [h.node? place hplace]

/-- Trees that agree off some places agree off more of them. -/
theorem mono (h : tree.AgreeOff places other) {more : Location → Prop}
    (hmore : ∀ place, places place → more place)
    (hdirectory : ∀ place, more place → tree.node? place ≠ some .directory) : tree.AgreeOff more other where
  workDirectory := h.workDirectory
  node? place hplace := h.node? place fun hplaces => hplace (hmore place hplaces)
  left := hdirectory
  right place hplace hnode := hdirectory place hplace ((h.directory_iff place).2 hnode)

/-! ### Resolving paths -/

theorem step (h : tree.AgreeOff places other) (place : Location) (name : Text) :
    Alike (fun _ _ => True) (tree.step place name) (other.step place name) := by
  have hrefused {t : FileTree} (hnode : t.node? place ≠ some .directory) :
      ∃ cause, t.step place name = .error cause := by
    rw [FileTree.step]
    split <;> simp_all
  by_cases hplace : places place
  · obtain ⟨cause, hleft⟩ := hrefused (h.left place hplace)
    obtain ⟨cause', hright⟩ := hrefused (h.right place hplace)
    rw [hleft, hright]
    exact .error trivial
  · exact .of_eq (fun _ => trivial) (by rw [FileTree.step, FileTree.step, h.node? place hplace])

/-- A path leads to the same place in both trees, or nowhere in either. -/
theorem walk (h : tree.AgreeOff places other) (path : Text) (names : List Text) :
    Alike (fun _ _ => True) (tree.walk path names) (other.walk path names) := by
  have hfold (start : Location) :
      Alike (fun _ _ => True) (names.foldlM tree.step start) (names.foldlM other.step start) := by
    induction names generalizing start with
    | nil => exact .ok start
    | cons name rest ih =>
        rw [List.foldlM_cons, List.foldlM_cons]
        exact (h.step start name).bind ih
  rw [FileTree.walk, FileTree.walk, h.workDirectory]
  split
  · exact .error trivial
  split
  · exact .error trivial
  split
  · exact .error trivial
  · exact hfold _

theorem leadsTo_iff (h : tree.AgreeOff places other) (path : Text) (place : Location) :
    tree.LeadsTo path place ↔ other.LeadsTo path place :=
  (h.walk path _).ok_iff place

theorem locate (h : tree.AgreeOff places other) (path : Text) :
    Alike (fun _ _ => True) (tree.locate path) (other.locate path) := by
  rw [FileTree.locate, FileTree.locate]
  split
  · exact (h.walk path _).bind fun _ => .error trivial
  · refine (h.walk path _).bind fun place => ?_
    by_cases hdirectory : tree.node? place = some .directory
    · rw [hdirectory, (h.directory_iff place).1 hdirectory]
      exact .error trivial
    · have hother := mt (h.directory_iff place).2 hdirectory
      simp only [beq_eq_false_iff_ne.2 hdirectory, beq_eq_false_iff_ne.2 hother]
      exact .ok place

/-- A path that does not lead to one of the places is read alike. -/
theorem read (h : tree.AgreeOff places other) (hpath : ∀ place, places place → ¬ tree.LeadsTo path place) :
    Alike (fun _ _ => True) (tree.read path) (other.read path) := by
  have hwalk := h.walk path (path.splitOn '/')
  rw [FileTree.read, FileTree.read]
  cases hleft : tree.walk path (path.splitOn '/') with
  | error cause =>
      obtain ⟨cause', hright⟩ := (hleft ▸ hwalk).exists_error
      rw [hright]
      exact .error trivial
  | ok place =>
      have hplace : ¬ places place := fun hplace => hpath place hplace hleft
      refine .of_eq (fun _ => trivial) ?_
      rw [(hwalk.ok_iff place).1 hleft]
      simp only [bind, Except.bind, h.node? place hplace]

end AgreeOff

/-- What is in a file does not decide where paths lead. -/
theorem leadsTo_put_file (hplace : tree.node? place ≠ some .directory) (content : Bytes) (path : Text)
    (elsewhere : Location) :
    (tree.put place (.file content)).LeadsTo path elsewhere ↔ tree.LeadsTo path elsewhere := by
  have hself : tree.AgreeOff (· = place) tree := .refl fun _ heq => heq ▸ hplace
  have hput : tree.AgreeOff (· = place) (tree.put place (.file content)) :=
    hself.put_right rfl Node.noConfusion
  exact (hput.leadsTo_iff path elsewhere).symm

/-! ### Opening a file -/

/-- A directory is not opened for writing. -/
theorem node?_of_locate (h : tree.locate path = .ok place) : tree.node? place ≠ some .directory := by
  rw [locate] at h
  split at h
  · dsimp only at h
    generalize tree.walk path _ = parents at h
    cases parents <;> cases h
  · generalize tree.walk path _ = found at h
    cases found with
    | error cause => cases h
    | ok found =>
        change (if tree.node? found == some .directory then _ else _) = _ at h
        cases hdirectory : tree.node? found == some .directory with
        | true =>
            rw [hdirectory] at h
            cases h
        | false =>
            rw [hdirectory] at h
            cases h
            exact ne_of_beq_false hdirectory

/-- Whether opening a file empties or makes it. -/
def Empties (tree : FileTree) (place : Location) (mode : OpenMode) : Prop :=
  (∀ device, tree.node? place ≠ some (.device device)) ∧
    (mode = .append → tree.node? place = none)

/-- The tree once a file is open for writing. -/
def afterOpening (tree : FileTree) (place : Location) (mode : OpenMode) : FileTree :=
  match tree.node? place, mode with
  | some (.device _), _ => tree
  | some _, .append => tree
  | _, _ => tree.put place (.file [])

theorem afterOpening_of_empties {mode : OpenMode} (h : tree.Empties place mode) :
    tree.afterOpening place mode = tree.put place (.file []) := by
  obtain ⟨hdevice, happend⟩ := h
  unfold afterOpening
  rcases hnode : tree.node? place with _ | _ | content | device
  · rfl
  · cases mode <;> simp_all
  · cases mode <;> simp_all
  · exact absurd hnode (hdevice device)

theorem afterOpening_of_not_empties {mode : OpenMode} (h : ¬ tree.Empties place mode) :
    tree.afterOpening place mode = tree := by
  rw [Empties] at h
  unfold afterOpening
  rcases hnode : tree.node? place with _ | _ | content | device <;> cases mode <;> simp_all

theorem AgreeOff.afterOpening {mode : OpenMode} (h : tree.AgreeOff places other)
    (hplace : other.Empties place mode → places place) :
    tree.AgreeOff places (other.afterOpening place mode) := by
  by_cases hempties : other.Empties place mode
  · rw [afterOpening_of_empties hempties]
    exact h.put_right (hplace hempties) (by simp)
  · rwa [afterOpening_of_not_empties hempties]

end FileTree

namespace World

variable {world : World} {path : Text} {place : Location} {places : Location → Prop}

theorem openFile_of_locate (h : world.tree.locate path = .ok place) (mode : OpenMode) :
    world.openFile path mode =
      (.ok (.opened world.opened.length), { world with
        tree := world.tree.afterOpening place mode
        opened := world.opened ++ [{ place, mode }] }) := by
  rw [openFile, h]
  rfl

theorem openFile_of_locate_error {cause : FileError} (h : world.tree.locate path = .error cause)
    (mode : OpenMode) : world.openFile path mode = (.error cause, world) := by
  rw [openFile, h]

end World

end AsmLink
