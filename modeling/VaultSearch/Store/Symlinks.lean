/-
Symbolic links in a tree of files: how the kernel walks a path, and how `realpath` rewrites
one without asking that it exists.

The kernel follows every link it meets and gives up after a bounded number of them, at a
missing entry, and at a file with more of the path behind it.  `realpath` never gives up: a
missing entry and a link that is still being resolved stay in the path as they are, and a
link resolved before is replaced by what it led to.  A path `realpath` returns is therefore
not always free of links; it is free of links that lead anywhere.

A component of the path being resolved is anything that carries a name, so that it may also
remember where it was written.
-/

import Mathlib.Data.List.Basic
import Mathlib.Data.List.Count
import Mathlib.Data.List.Induction

set_option autoImplicit false

namespace VaultSearch.Symlinks

abbrev Location (name : Type) := List name

/-- The text between two slashes of a path: `.` or nothing, `..`, or a name. -/
inductive Step (name : Type) where
  | stay
  | up
  | enter (entry : name)
  deriving DecidableEq

namespace Step

variable {name other : Type}

def map (image : name → other) : Step name → Step other
  | .stay => .stay
  | .up => .up
  | .enter entry => .enter (image entry)

theorem map_id (step : Step name) : step.map id = step := by
  cases step <;> rfl

end Step

/-- What `readlink` returns. -/
structure Target (name : Type) where
  absolute : Bool
  steps : List (Step name)
  deriving DecidableEq

inductive Node (name : Type) where
  | file
  | directory
  | link (target : Target name)
  deriving DecidableEq

def enters {name : Type} (location : Location name) : List (Step name) :=
  location.map Step.enter

theorem enters_snoc {name : Type} (location : Location name) (entry : name) :
    enters (location ++ [entry]) = enters location ++ [.enter entry] := by
  unfold enters
  rw [List.map_append]
  rfl

section Trees

variable {name : Type} [DecidableEq name]

/-- The entry at a location.  The empty location is the root of the tree. -/
def nodeIn (entries : List (Location name × Node name)) (location : Location name) :
    Option (Node name) :=
  if location = [] then some .directory
  else (entries.find? (fun entry => entry.1 = location)).map Prod.snd

/-- A finite tree in which every entry lies in a directory. -/
structure FileTree (name : Type) [DecidableEq name] where
  entries : List (Location name × Node name)
  placed : ∀ entry ∈ entries, nodeIn entries entry.1.dropLast = some .directory

namespace FileTree

variable (tree : FileTree name)

def node (location : Location name) : Option (Node name) :=
  nodeIn tree.entries location

/-- `readlink`, which fails on anything but a link. -/
def linkAt (location : Location name) : Option (Target name) :=
  match tree.node location with
  | some (.link target) => some target
  | _ => none

theorem linkAt_eq_some {location : Location name} {target : Target name} :
    tree.linkAt location = some target ↔ tree.node location = some (.link target) := by
  unfold linkAt
  split
  case h_1 found present =>
      rw [present, Option.some.injEq, Option.some.injEq, Node.link.injEq]
  case h_2 other =>
      constructor
      · intro absent
        cases absent
      · intro present
        exact absurd present (other target)

theorem node_nil : tree.node [] = some .directory := by
  unfold node nodeIn
  exact if_pos rfl

theorem exists_entry {location : Location name} (filled : location ≠ [])
    (present : (tree.node location).isSome = true) :
    ∃ entry ∈ tree.entries, entry.1 = location := by
  unfold node nodeIn at present
  rw [if_neg filled, Option.isSome_map, List.find?_isSome] at present
  obtain ⟨entry, member, same⟩ := present
  exact ⟨entry, member, of_decide_eq_true same⟩

theorem parent_directory {location : Location name} (present : (tree.node location).isSome = true) :
    tree.node location.dropLast = some .directory := by
  by_cases empty : location = []
  · rw [empty]
    exact tree.node_nil
  · obtain ⟨entry, member, same⟩ := tree.exists_entry empty present
    rw [← same]
    exact tree.placed entry member

theorem parent_directory_snoc {location : Location name} {entry : name}
    (present : (tree.node (location ++ [entry])).isSome = true) :
    tree.node location = some .directory := by
  have parent := tree.parent_directory present
  rwa [List.dropLast_concat] at parent

end FileTree

/-- Where the steps of a link's target begin: at the root, or in the directory of the
link. -/
def Target.start {name component : Type} (target : Target name) (directory : List component) :
    List component :=
  if target.absolute then [] else directory

theorem Target.start_map {name component other : Type} (target : Target name)
    (image : component → other) (directory : List component) :
    (target.start directory).map image = target.start (directory.map image) := by
  unfold Target.start
  split <;> rfl

/-! ### The walk of the kernel -/

namespace FileTree

variable (tree : FileTree name)

/-- The steps up to the next link, which is handed to `follow`. -/
def walkWith (follow : Location name → List (Step name) → Option (Location name)) :
    Location name → List (Step name) → Option (Location name)
  | location, [] => some location
  | location, step :: rest =>
      if tree.node location = some .directory then
        match step with
        | .stay => walkWith follow location rest
        | .up => walkWith follow location.dropLast rest
        | .enter entry =>
            match tree.node (location ++ [entry]) with
            | none => none
            | some (.link target) => follow (target.start location) (target.steps ++ rest)
            | some _ => walkWith follow (location ++ [entry]) rest
      else none

/-- The location a path leads to from a location, with fewer than `rounds` links on the
way. -/
def walk : Nat → Location name → List (Step name) → Option (Location name)
  | 0, _, _ => none
  | rounds + 1, location, steps => tree.walkWith (walk rounds) location steps

variable {tree}

theorem walk_succ_stay (fewer : Nat) (location : Location name) (rest : List (Step name)) :
    tree.walk (fewer + 1) location (.stay :: rest) =
      if tree.node location = some .directory then tree.walk (fewer + 1) location rest
      else none := rfl

theorem walk_succ_up (fewer : Nat) (location : Location name) (rest : List (Step name)) :
    tree.walk (fewer + 1) location (.up :: rest) =
      if tree.node location = some .directory then tree.walk (fewer + 1) location.dropLast rest
      else none := rfl

/-- What the first step of a walk does. -/
theorem walk_cons {rounds : Nat} {location reached : Location name} {step : Step name}
    {rest : List (Step name)} (found : tree.walk rounds location (step :: rest) = some reached) :
    tree.node location = some .directory ∧
      ((step = .stay ∧ tree.walk rounds location rest = some reached) ∨
       (step = .up ∧ tree.walk rounds location.dropLast rest = some reached) ∨
       (∃ entry, step = .enter entry ∧ (tree.node (location ++ [entry])).isSome = true ∧
          tree.linkAt (location ++ [entry]) = none ∧
          tree.walk rounds (location ++ [entry]) rest = some reached) ∨
       (∃ entry target fewer, step = .enter entry ∧
          tree.node (location ++ [entry]) = some (.link target) ∧ rounds = fewer + 1 ∧
          tree.walk fewer (target.start location) (target.steps ++ rest) = some reached)) := by
  cases rounds with
  | zero => cases found
  | succ fewer =>
      cases step with
      | stay =>
          rw [walk_succ_stay] at found
          obtain ⟨inside, later⟩ := Option.ite_none_right_eq_some.mp found
          exact ⟨inside, Or.inl ⟨rfl, later⟩⟩
      | up =>
          rw [walk_succ_up] at found
          obtain ⟨inside, later⟩ := Option.ite_none_right_eq_some.mp found
          exact ⟨inside, Or.inr (Or.inl ⟨rfl, later⟩)⟩
      | enter entry =>
          rw [walk, walkWith] at found
          obtain ⟨inside, later⟩ := Option.ite_none_right_eq_some.mp found
          apply And.intro inside
          split at later
          case h_1 => cases later
          case h_2 target present =>
              exact Or.inr (Or.inr (Or.inr ⟨entry, target, fewer, rfl, present, rfl, later⟩))
          case h_3 node other present =>
              refine Or.inr (Or.inr (Or.inl ⟨entry, rfl, by rw [present]; rfl, ?_, later⟩))
              cases linked : tree.linkAt (location ++ [entry]) with
              | none => rfl
              | some target =>
                  rw [linkAt_eq_some, present] at linked
                  exact absurd (Option.some.inj linked) (other target)

theorem walk_nil {rounds : Nat} {location reached : Location name}
    (found : tree.walk rounds location [] = some reached) : reached = location := by
  cases rounds with
  | zero => cases found
  | succ fewer => exact (Option.some.inj found).symm

theorem walk_stay (rounds : Nat) {location : Location name} (rest : List (Step name))
    (inside : tree.node location = some .directory) :
    tree.walk rounds location (.stay :: rest) = tree.walk rounds location rest := by
  cases rounds with
  | zero => rfl
  | succ fewer => rw [walk_succ_stay, if_pos inside]

theorem walk_up (rounds : Nat) {location : Location name} (rest : List (Step name))
    (inside : tree.node location = some .directory) :
    tree.walk rounds location (.up :: rest) = tree.walk rounds location.dropLast rest := by
  cases rounds with
  | zero => rfl
  | succ fewer => rw [walk_succ_up, if_pos inside]

theorem walk_enter (rounds : Nat) {location : Location name} {entry : name}
    (rest : List (Step name)) (present : (tree.node (location ++ [entry])).isSome = true)
    (plain : tree.linkAt (location ++ [entry]) = none) :
    tree.walk rounds location (.enter entry :: rest) =
      tree.walk rounds (location ++ [entry]) rest := by
  cases rounds with
  | zero => rfl
  | succ fewer =>
      refine (if_pos (tree.parent_directory_snoc present)).trans ?_
      split
      case h_1 absent =>
          rw [absent] at present
          cases present
      case h_2 target linked =>
          rw [(linkAt_eq_some tree).mpr linked] at plain
          cases plain
      case h_3 => rfl

theorem walk_link (fewer : Nat) {location : Location name} {entry : name} {target : Target name}
    (rest : List (Step name)) (linked : tree.node (location ++ [entry]) = some (.link target)) :
    tree.walk (fewer + 1) location (.enter entry :: rest) =
      tree.walk fewer (target.start location) (target.steps ++ rest) := by
  have inside := tree.parent_directory_snoc (by rw [linked]; rfl : (tree.node _).isSome = true)
  refine (if_pos inside).trans ?_
  rw [linked]

/-- More links allowed, same place. -/
theorem walk_mono {rounds more : Nat} (le : rounds ≤ more) :
    ∀ {steps : List (Step name)} {location reached : Location name},
      tree.walk rounds location steps = some reached →
      tree.walk more location steps = some reached := by
  induction rounds generalizing more with
  | zero =>
      intro steps location reached found
      cases found
  | succ fewer ih =>
      intro steps
      cases more with
      | zero => omega
      | succ others =>
          induction steps with
          | nil =>
              intro location reached found
              rw [walk_nil found]
              rfl
          | cons step rest restIh =>
              intro location reached found
              obtain ⟨inside, stayed | wentUp | entered | linked⟩ := walk_cons found
              · rw [stayed.1, walk_stay _ _ inside]
                exact restIh stayed.2
              · rw [wentUp.1, walk_up _ _ inside]
                exact restIh wentUp.2
              · obtain ⟨entry, same, present, plain, later⟩ := entered
                rw [same, walk_enter _ _ present plain]
                exact restIh later
              · obtain ⟨entry, target, left, same, present, count, later⟩ := linked
                rw [same, walk_link _ _ present]
                apply ih (by omega)
                rw [Nat.succ.inj count]
                exact later

/-- A walk along a path passes through the end of each of its beginnings. -/
theorem walk_append {rounds : Nat} : ∀ {front back : List (Step name)}
    {location reached : Location name},
    tree.walk rounds location (front ++ back) = some reached →
    ∃ middle, tree.walk rounds location front = some middle ∧
      tree.walk rounds middle back = some reached := by
  induction rounds with
  | zero =>
      intro front back location reached found
      cases found
  | succ fewer ih =>
      intro front back
      induction front with
      | nil =>
          intro location reached found
          exact ⟨location, rfl, found⟩
      | cons step rest restIh =>
          intro location reached found
          rw [List.cons_append] at found
          obtain ⟨inside, stayed | wentUp | entered | linked⟩ := walk_cons found
          · rw [stayed.1, walk_stay _ _ inside]
            exact restIh stayed.2
          · rw [wentUp.1, walk_up _ _ inside]
            exact restIh wentUp.2
          · obtain ⟨entry, same, present, plain, later⟩ := entered
            rw [same, walk_enter _ _ present plain]
            exact restIh later
          · obtain ⟨entry, target, left, same, present, count, later⟩ := linked
            rw [← Nat.succ.inj count, ← List.append_assoc] at later
            obtain ⟨middle, first, second⟩ := ih later
            rw [same, walk_link _ _ present]
            exact ⟨middle, first, walk_mono (Nat.le_succ _) second⟩

/-! ### Real locations -/

variable (tree) in
/-- Something is there, and it is no link. -/
def IsReal (location : Location name) : Prop :=
  (tree.node location).isSome = true ∧ tree.linkAt location = none

instance (location : Location name) : Decidable (tree.IsReal location) :=
  inferInstanceAs (Decidable (_ ∧ _))

theorem isReal_of_directory {location : Location name}
    (inside : tree.node location = some .directory) : tree.IsReal location := by
  constructor
  · rw [inside]
    rfl
  · unfold linkAt
    rw [inside]

theorem isReal_nil : tree.IsReal [] := isReal_of_directory tree.node_nil

theorem IsReal.parent {location : Location name} {entry : name}
    (real : tree.IsReal (location ++ [entry])) : tree.IsReal location :=
  isReal_of_directory (tree.parent_directory_snoc real.1)

theorem IsReal.front {front back : Location name} (real : tree.IsReal (front ++ back)) :
    tree.IsReal front := by
  induction back using List.reverseRecOn with
  | nil => rwa [List.append_nil] at real
  | append_singleton earlier final ih =>
      rw [← List.append_assoc] at real
      exact ih real.parent

/-- A walk ends at a real location. -/
theorem walk_isReal {rounds : Nat} :
    ∀ {steps : List (Step name)} {location reached : Location name},
    tree.IsReal location → tree.walk rounds location steps = some reached →
    tree.IsReal reached := by
  induction rounds with
  | zero =>
      intro steps location reached _real found
      cases found
  | succ fewer ih =>
      intro steps
      induction steps with
      | nil =>
          intro location reached real found
          rw [walk_nil found]
          exact real
      | cons step rest restIh =>
          intro location reached real found
          obtain ⟨inside, stayed | wentUp | entered | linked⟩ := walk_cons found
          · exact restIh real stayed.2
          · exact restIh (isReal_of_directory (tree.parent_directory real.1)) wentUp.2
          · obtain ⟨entry, same, present, plain, later⟩ := entered
            exact restIh ⟨present, plain⟩ later
          · obtain ⟨entry, target, left, same, present, count, later⟩ := linked
            rw [← Nat.succ.inj count] at later
            apply ih _ later
            unfold Target.start
            split
            · exact isReal_nil
            · exact real

/-- From the root, a real location is reached by entering its components. -/
theorem walk_real (rounds : Nat) {location : Location name} (real : tree.IsReal location)
    (rest : List (Step name)) :
    tree.walk rounds [] (enters location ++ rest) = tree.walk rounds location rest := by
  induction location using List.reverseRecOn generalizing rest with
  | nil => rfl
  | append_singleton front entry ih =>
      rw [enters_snoc, List.append_assoc, ih real.parent]
      exact walk_enter rounds rest real.1 real.2

theorem walk_real_self (rounds : Nat) {location : Location name} (real : tree.IsReal location) :
    tree.walk (rounds + 1) [] (enters location) = some location := by
  have whole := walk_real (rounds + 1) real []
  rw [List.append_nil] at whole
  rw [whole]
  rfl

/-! ### Paths without a link that leads anywhere -/

variable (tree) in
/-- No walk gets past this location. -/
def Dead (location : Location name) : Prop :=
  ∀ rounds, tree.walk rounds [] (enters location) = none

variable (tree) in
/-- Every link on the way is dead. -/
def Settled (path : Location name) : Prop :=
  ∀ front back, path = front ++ back → tree.linkAt front ≠ none → tree.Dead front

theorem settled_nil : tree.Settled [] := by
  intro front back same linked
  have empty := (List.append_eq_nil_iff.mp same.symm).1
  rw [empty] at linked
  exact absurd isReal_nil.2 linked

theorem Settled.front {front back : Location name} (settled : tree.Settled (front ++ back)) :
    tree.Settled front := by
  intro earlier later same linked
  apply settled earlier (later ++ back) _ linked
  rw [same, List.append_assoc]

theorem Settled.dropLast {path : Location name} (settled : tree.Settled path) :
    tree.Settled path.dropLast := by
  induction path using List.reverseRecOn with
  | nil => exact settled
  | append_singleton front entry _ih =>
      rw [List.dropLast_concat]
      exact settled.front

theorem Settled.snoc {path : Location name} {entry : name} (settled : tree.Settled path)
    (last : tree.linkAt (path ++ [entry]) ≠ none → tree.Dead (path ++ [entry])) :
    tree.Settled (path ++ [entry]) := by
  intro front back same linked
  induction back using List.reverseRecOn with
  | nil =>
      rw [List.append_nil] at same
      rw [← same] at linked ⊢
      exact last linked
  | append_singleton earlier final _ih =>
      rw [← List.append_assoc] at same
      exact settled front earlier (List.append_inj' same rfl).1 linked

theorem isReal_settled {location : Location name} (real : tree.IsReal location) :
    tree.Settled location := by
  induction location using List.reverseRecOn with
  | nil => exact settled_nil
  | append_singleton front entry ih =>
      exact (ih real.parent).snoc (fun linked => absurd real.2 linked)

/-- A walk along a settled path goes where the path says. -/
theorem Settled.walk {path : Location name} (settled : tree.Settled path) {rounds : Nat}
    {rest : List (Step name)} {reached : Location name}
    (found : tree.walk rounds [] (enters path ++ rest) = some reached) :
    tree.walk rounds path rest = some reached := by
  induction path using List.reverseRecOn generalizing rest with
  | nil => exact found
  | append_singleton front entry ih =>
      obtain ⟨middle, passed, _later⟩ := walk_append found
      rw [enters_snoc, List.append_assoc] at found
      obtain ⟨_inside, stayed | wentUp | entered | linked⟩ := walk_cons (ih settled.front found)
      · cases stayed.1
      · cases wentUp.1
      · obtain ⟨same, isEntry, _present, _plain, later⟩ := entered
        cases isEntry
        exact later
      · obtain ⟨same, target, fewer, isEntry, present, _count, _later⟩ := linked
        cases isEntry
        have dead := settled (front ++ [entry]) [] (List.append_nil _).symm
          (by rw [(linkAt_eq_some tree).mpr present]; exact Option.some_ne_none _)
        rw [dead rounds] at passed
        cases passed

theorem Settled.lands {path : Location name} (settled : tree.Settled path) {rounds : Nat}
    {reached : Location name} (found : tree.walk rounds [] (enters path) = some reached) :
    reached = path := by
  apply walk_nil (settled.walk _)
  · exact rounds
  · rw [List.append_nil]
    exact found

/-! ### `realpath` -/

/-- What is left to do: a step, or the note that everything the target of a link says has
been done. -/
inductive Pending (name component : Type) where
  | step (next : Step component)
  | resolved (link : Location name)

/-- The links met so far, with what they led to once that is known. -/
abbrev Seen (name component : Type) :=
  List (Location name × Option (List component))

section Resolving

variable {component : Type} (tree) (label : component → name)
  (written : Location name → name → component)

/-- The loop up to the next link that has not been met, which is handed to `opened`. -/
def resolveWith
    (opened : List (Pending name component) → List component → Seen name component →
      List component) :
    List (Pending name component) → List component → Seen name component → List component
  | [], path, _ => path
  | .resolved link :: rest, path, seen => resolveWith opened rest path ((link, some path) :: seen)
  | .step .stay :: rest, path, seen => resolveWith opened rest path seen
  | .step .up :: rest, path, seen => resolveWith opened rest path.dropLast seen
  | .step (.enter entry) :: rest, path, seen =>
      let newPath := path ++ [entry]
      let link := newPath.map label
      match tree.linkAt link with
      | none => resolveWith opened rest newPath seen
      | some target =>
          match seen.lookup link with
          | some (some known) => resolveWith opened rest known seen
          | some none => resolveWith opened rest newPath seen
          | none =>
              opened
                ((target.steps.map (Step.map (written link))).map .step ++ .resolved link :: rest)
                (target.start path) ((link, none) :: seen)

/-- The loop, as long as it opens fewer than `rounds` links.  It opens each link once, so
that one round more than there are entries is enough. -/
def resolve : Nat → List (Pending name component) → List component → Seen name component →
    List component
  | 0, _, path, _ => path
  | rounds + 1, pending, path, seen =>
      tree.resolveWith label written (resolve rounds) pending path seen

/-- `realpath` of the path that these steps make from a location, where every component
remembers what it carries. -/
def trace (start : List component) (steps : List (Step component)) : List component :=
  tree.resolve label written (tree.entries.length + 1) (steps.map .step) start []

end Resolving

variable (tree) in
/-- `os.path.realpath`, not strict. -/
def realpath (steps : List (Step name)) : Location name :=
  tree.trace id (fun _link entry => entry) [] steps

/-! ### What holds while the loop runs -/

section Soundness

variable {component : Type} {label : component → name}
  {written : Location name → name → component}

/-- The steps that are left, without the notes between them. -/
def stepsOf (label : component → name) : List (Pending name component) → List (Step name)
  | [] => []
  | .step next :: rest => next.map label :: stepsOf label rest
  | .resolved _ :: rest => stepsOf label rest

omit [DecidableEq name] in
theorem stepsOf_written (label : component → name) (from_ : name → component)
    (labelled : ∀ entry, label (from_ entry) = entry) (steps : List (Step name))
    (rest : List (Pending name component)) :
    stepsOf label ((steps.map (Step.map from_)).map .step ++ rest) =
      steps ++ stepsOf label rest := by
  induction steps with
  | nil => rfl
  | cons step others ih =>
      rw [List.map_cons, List.map_cons, List.cons_append, stepsOf, ih]
      cases step with
      | stay => rfl
      | up => rfl
      | enter entry =>
          rw [Step.map, Step.map, labelled]
          rfl

variable (tree) in
/-- Every walk to `link` goes on, with fewer links, as a walk along `path` and `rest`. -/
def ContinuesAs (link path : Location name) (rest : List (Step name)) : Prop :=
  ∀ rounds reached, tree.walk rounds [] (enters link) = some reached →
    ∃ fewer, fewer < rounds ∧ tree.walk fewer [] (enters path ++ rest) = some reached

variable (tree label) in
/-- The state of the loop agrees with the walk. -/
structure Sound (pending : List (Pending name component)) (path : List component)
    (seen : Seen name component) : Prop where
  settled : tree.Settled (path.map label)
  awaited : ∀ before link after, pending = before ++ .resolved link :: after →
    tree.ContinuesAs link (path.map label) (stepsOf label before)
  opened : ∀ link, seen.lookup link = some none → .resolved link ∈ pending
  known : ∀ link result, seen.lookup link = some (some result) →
    tree.Settled (result.map label) ∧
      ∀ rounds reached, tree.walk rounds [] (enters link) = some reached →
        reached = result.map label

/-- A link whose walk would have to pass through itself is dead. -/
theorem dead_of_continuesAs {link : Location name} {rest : List (Step name)}
    (again : tree.ContinuesAs link link rest) : tree.Dead link := by
  intro rounds
  induction rounds using Nat.strongRecOn with
  | ind rounds ih =>
      cases found : tree.walk rounds [] (enters link) with
      | none => rfl
      | some reached =>
          obtain ⟨fewer, less, later⟩ := again rounds reached found
          obtain ⟨middle, passed, _⟩ := walk_append later
          rw [ih fewer less] at passed
          cases passed

/-- A step that opens no link. -/
theorem Sound.advance {next : Step component} {rest : List (Pending name component)}
    {path later : List component} {seen : Seen name component}
    (sound : Sound tree label (.step next :: rest) path seen)
    (settled : tree.Settled (later.map label))
    (same : ∀ rounds behind reached,
      tree.walk rounds [] (enters (path.map label) ++ next.map label :: behind) = some reached →
      tree.walk rounds [] (enters (later.map label) ++ behind) = some reached) :
    Sound tree label rest later seen :=
  { settled
    awaited := by
      intro before link after shape rounds reached found
      have whole : .step next :: rest = (.step next :: before) ++ .resolved link :: after := by
        rw [shape]
        rfl
      obtain ⟨fewer, less, continued⟩ := sound.awaited _ link after whole rounds reached found
      exact ⟨fewer, less, same fewer _ reached continued⟩
    opened := by
      intro link unresolved
      cases List.mem_cons.mp (sound.opened link unresolved) with
      | inl impossible => cases impossible
      | inr member => exact member
    known := sound.known }

theorem Sound.stay {rest : List (Pending name component)} {path : List component}
    {seen : Seen name component} (sound : Sound tree label (.step .stay :: rest) path seen) :
    Sound tree label rest path seen := by
  apply sound.advance sound.settled
  intro rounds behind reached found
  have inside := sound.settled.walk found
  rcases walk_cons inside with ⟨directory, _⟩
  have real := isReal_of_directory directory
  rw [walk_real rounds real]
  rwa [Step.map, walk_stay rounds behind directory] at inside

theorem Sound.up {rest : List (Pending name component)} {path : List component}
    {seen : Seen name component} (sound : Sound tree label (.step .up :: rest) path seen) :
    Sound tree label rest path.dropLast seen := by
  apply sound.advance
  · rw [List.map_dropLast]
    exact sound.settled.dropLast
  · intro rounds behind reached found
    have inside := sound.settled.walk found
    rcases walk_cons inside with ⟨directory, _⟩
    have real := isReal_of_directory (tree.parent_directory (isReal_of_directory directory).1)
    rw [List.map_dropLast, walk_real rounds real]
    rwa [Step.map, walk_up rounds behind directory] at inside

/-- An entry that stays in the path. -/
theorem Sound.enter {entry : component} {rest : List (Pending name component)}
    {path : List component} {seen : Seen name component}
    (sound : Sound tree label (.step (.enter entry) :: rest) path seen)
    (kept : tree.linkAt ((path ++ [entry]).map label) ≠ none →
      tree.Dead ((path ++ [entry]).map label)) :
    Sound tree label rest (path ++ [entry]) seen := by
  rw [List.map_append, List.map_cons, List.map_nil] at kept
  apply sound.advance
  · rw [List.map_append, List.map_cons, List.map_nil]
    exact sound.settled.snoc kept
  · intro rounds behind reached found
    rw [List.map_append, List.map_cons, List.map_nil, enters_snoc, List.append_assoc]
    exact found

/-- A link that is still being resolved. -/
theorem Sound.dead {entry : component} {rest : List (Pending name component)}
    {path : List component} {seen : Seen name component}
    (sound : Sound tree label (.step (.enter entry) :: rest) path seen)
    (unresolved : seen.lookup ((path ++ [entry]).map label) = some none) :
    tree.Dead ((path ++ [entry]).map label) := by
  obtain ⟨before, after, shape⟩ := List.append_of_mem (sound.opened _ unresolved)
  cases before with
  | nil => cases shape
  | cons head others =>
      have first := (List.cons.inj shape).1
      have continued := sound.awaited _ _ after shape
      rw [← first, stepsOf] at continued
      have again : tree.ContinuesAs ((path ++ [entry]).map label) ((path ++ [entry]).map label)
          (stepsOf label others) := by
        intro rounds reached found
        obtain ⟨fewer, less, later⟩ := continued rounds reached found
        apply Exists.intro fewer
        constructor
        · exact less
        · rw [List.map_append, List.map_cons, List.map_nil, enters_snoc, List.append_assoc]
          exact later
      exact dead_of_continuesAs again

/-- A link that was resolved before. -/
theorem Sound.reuse {entry : component} {rest : List (Pending name component)}
    {path result : List component} {seen : Seen name component}
    (sound : Sound tree label (.step (.enter entry) :: rest) path seen)
    (resolved : seen.lookup ((path ++ [entry]).map label) = some (some result)) :
    Sound tree label rest result seen := by
  obtain ⟨settled, exact_⟩ := sound.known _ _ resolved
  apply sound.advance settled
  intro rounds behind reached found
  have whole : enters (path.map label) ++ (Step.enter entry).map label :: behind =
      enters ((path ++ [entry]).map label) ++ behind := by
    rw [List.map_append, List.map_cons, List.map_nil, enters_snoc, List.append_assoc]
    rfl
  rw [whole] at found
  obtain ⟨middle, passed, later⟩ := walk_append found
  have real := walk_isReal isReal_nil passed
  rw [exact_ rounds middle passed] at later real
  rw [walk_real rounds real]
  exact later

omit [DecidableEq name] in
/-- The note behind the steps of a target is the first one. -/
theorem written_split {steps : List (Step component)} {link other : Location name}
    {rest before after : List (Pending name component)}
    (shape : steps.map .step ++ .resolved link :: rest = before ++ .resolved other :: after) :
    (other = link ∧ before = steps.map .step) ∨
      ∃ others, before = steps.map .step ++ .resolved link :: others ∧
        rest = others ++ .resolved other :: after := by
  induction steps generalizing before with
  | nil =>
      cases before with
      | nil =>
          cases shape
          exact Or.inl ⟨rfl, rfl⟩
      | cons head others =>
          cases shape
          exact Or.inr ⟨others, rfl, rfl⟩
  | cons step others ih =>
      cases before with
      | nil => cases shape
      | cons head remaining =>
          obtain ⟨same, behind⟩ := List.cons.inj shape
          cases same
          rcases ih behind with ⟨isLink, isBefore⟩ | ⟨more, isBefore, isRest⟩
          · exact Or.inl ⟨isLink, by rw [isBefore]; rfl⟩
          · exact Or.inr ⟨more, by rw [isBefore]; rfl, isRest⟩

/-- A link that is met for the first time. -/
theorem Sound.open {entry : component} {rest : List (Pending name component)}
    {path : List component} {seen : Seen name component} {target : Target name}
    (labelled : ∀ link named, label (written link named) = named)
    (sound : Sound tree label (.step (.enter entry) :: rest) path seen)
    (linked : tree.linkAt ((path ++ [entry]).map label) = some target) :
    Sound tree label
      ((target.steps.map (Step.map (written ((path ++ [entry]).map label)))).map .step ++
        .resolved ((path ++ [entry]).map label) :: rest)
      (target.start path) ((((path ++ [entry]).map label), none) :: seen) := by
  have shape : (path ++ [entry]).map label = path.map label ++ [label entry] := by
    rw [List.map_append, List.map_cons, List.map_nil]
  have present := (linkAt_eq_some tree).mp linked
  rw [shape] at present
  -- a walk that gets to the link goes on with the steps of its target
  have follows : ∀ rounds behind reached,
      tree.walk rounds [] (enters (path.map label) ++ .enter (label entry) :: behind) =
        some reached →
      ∃ fewer, fewer < rounds ∧
        tree.walk fewer [] (enters ((target.start path).map label) ++ (target.steps ++ behind)) =
          some reached := by
    intro rounds behind reached found
    obtain ⟨directory, stayed | wentUp | entered | followed⟩ :=
      walk_cons (sound.settled.walk found)
    · cases stayed.1
    · cases wentUp.1
    · obtain ⟨same, isEntry, _present, plain, _later⟩ := entered
      cases isEntry
      rw [(linkAt_eq_some tree).mpr present] at plain
      cases plain
    · obtain ⟨same, other, fewer, isEntry, there, count, later⟩ := followed
      cases isEntry
      cases Option.some.inj (present.symm.trans there)
      have real : tree.IsReal ((target.start path).map label) := by
        rw [Target.start_map]
        unfold Target.start
        split
        · exact isReal_nil
        · exact isReal_of_directory directory
      refine ⟨fewer, by omega, ?_⟩
      rw [walk_real fewer real, Target.start_map]
      exact later
  have settled : tree.Settled ((target.start path).map label) := by
    rw [Target.start_map]
    unfold Target.start
    split
    · exact settled_nil
    · exact sound.settled
  exact
    { settled
      awaited := by
        intro before link after divided rounds reached found
        rcases written_split divided with ⟨isLink, isBefore⟩ | ⟨others, isBefore, isRest⟩
        · rw [isLink, shape, enters_snoc] at found
          obtain ⟨fewer, less, later⟩ := follows rounds [] reached found
          rw [List.append_nil] at later
          have left := stepsOf_written label (written ((path ++ [entry]).map label))
            (labelled _) target.steps []
          rw [List.append_nil] at left
          rw [isBefore, left]
          exact ⟨fewer, less, by rw [stepsOf, List.append_nil]; exact later⟩
        · have earlier : .step (.enter entry) :: rest =
              (.step (.enter entry) :: others) ++ .resolved link :: after := by
            rw [isRest]
            rfl
          obtain ⟨middle, less, toLink⟩ :=
            sound.awaited _ link after earlier rounds reached found
          obtain ⟨fewer, lesser, later⟩ := follows middle (stepsOf label others) reached toLink
          rw [isBefore, stepsOf_written _ _ (labelled _)]
          exact ⟨fewer, by omega, later⟩
      opened := by
        intro link unresolved
        apply List.mem_append_right
        by_cases same : link = (path ++ [entry]).map label
        · rw [same]
          exact List.mem_cons_self
        · rw [List.lookup_cons, beq_false_of_ne same] at unresolved
          cases List.mem_cons.mp (sound.opened link unresolved) with
          | inl impossible => cases impossible
          | inr member => exact List.mem_cons_of_mem _ member
      known := by
        intro link result resolved
        by_cases same : link = (path ++ [entry]).map label
        · rw [same, List.lookup_cons, beq_self_eq_true] at resolved
          cases resolved
        · rw [List.lookup_cons, beq_false_of_ne same] at resolved
          exact sound.known link result resolved }

/-- The target of a link has been followed to its end. -/
theorem Sound.close {link : Location name} {rest : List (Pending name component)}
    {path : List component} {seen : Seen name component}
    (sound : Sound tree label (.resolved link :: rest) path seen) :
    Sound tree label rest path ((link, some path) :: seen) :=
  { settled := sound.settled
    awaited := by
      intro before other after shape
      have whole : .resolved link :: rest =
          (.resolved link :: before) ++ .resolved other :: after := by
        rw [shape]
        rfl
      exact sound.awaited (.resolved link :: before) other after whole
    opened := by
      intro other unresolved
      by_cases same : other = link
      · rw [same, List.lookup_cons, beq_self_eq_true] at unresolved
        cases unresolved
      · rw [List.lookup_cons, beq_false_of_ne same] at unresolved
        cases List.mem_cons.mp (sound.opened other unresolved) with
        | inl impossible =>
            cases impossible
            exact absurd rfl same
        | inr member => exact member
    known := by
      intro other result resolved
      by_cases same : other = link
      · rw [same, List.lookup_cons, beq_self_eq_true] at resolved
        cases resolved
        apply And.intro sound.settled
        intro rounds reached found
        rw [same] at found
        obtain ⟨fewer, _less, later⟩ := sound.awaited [] link rest rfl rounds reached found
        rw [stepsOf, List.append_nil] at later
        exact sound.settled.lands later
      · rw [List.lookup_cons, beq_false_of_ne same] at resolved
        exact sound.known other result resolved }

/-! ### Every link is opened once -/

def isUnmet (seen : Seen name component) (entry : Location name × Node name) : Bool :=
  (seen.lookup entry.1).isNone

variable (tree) in
/-- The entries of the tree that have not been met as links. -/
def unmet (seen : Seen name component) : Nat :=
  tree.entries.countP (isUnmet seen)

theorem isUnmet_of_cons {link : Location name} {result : Option (List component)}
    {seen : Seen name component} {entry : Location name × Node name}
    (absent : isUnmet ((link, result) :: seen) entry = true) : isUnmet seen entry = true := by
  unfold isUnmet at absent
  rw [List.lookup_cons] at absent
  split at absent
  · cases absent
  · exact absent

theorem countP_isUnmet_cons_le (link : Location name) (result : Option (List component))
    (seen : Seen name component) (entries : List (Location name × Node name)) :
    entries.countP (isUnmet ((link, result) :: seen)) ≤ entries.countP (isUnmet seen) :=
  List.countP_mono_left (fun _entry _member absent => isUnmet_of_cons absent)

theorem unmet_open {link : Location name} {target : Target name}
    {seen : Seen name component} (linked : tree.linkAt link = some target)
    (fresh : seen.lookup link = none) :
    tree.unmet ((link, none) :: seen) < tree.unmet seen := by
  have present := (linkAt_eq_some tree).mp linked
  have filled : link ≠ [] := by
    intro empty
    rw [empty, tree.node_nil] at present
    cases present
  obtain ⟨entry, member, same⟩ := tree.exists_entry filled (by rw [present]; rfl)
  obtain ⟨front, back, shape⟩ := List.append_of_mem member
  have before := countP_isUnmet_cons_le link none seen front
  have behind := countP_isUnmet_cons_le link none seen back
  have now : ¬ isUnmet ((link, none) :: seen) entry = true := by
    unfold isUnmet
    rw [same, List.lookup_cons, beq_self_eq_true]
    exact Bool.false_ne_true
  have earlier : isUnmet seen entry = true := by
    unfold isUnmet
    rw [same, fresh]
    rfl
  unfold unmet
  rw [shape, List.countP_append, List.countP_append, List.countP_cons_of_neg now,
    List.countP_cons_of_pos earlier]
  omega

/-- The path that `realpath` returns is settled. -/
theorem resolve_settled (labelled : ∀ link named, label (written link named) = named) :
    ∀ (rounds : Nat) (pending : List (Pending name component)) (path : List component)
      (seen : Seen name component), Sound tree label pending path seen →
      tree.unmet seen < rounds →
      tree.Settled ((tree.resolve label written rounds pending path seen).map label) := by
  intro rounds
  induction rounds with
  | zero => intro pending path seen _sound enough; omega
  | succ others ih =>
      intro pending
      induction pending with
      | nil => intro path seen sound _enough; exact sound.settled
      | cons head rest restIh =>
          intro path seen sound enough
          cases head with
          | resolved link =>
              exact restIh _ _ sound.close
                (Nat.lt_of_le_of_lt (countP_isUnmet_cons_le link (some path) seen _) enough)
          | step next =>
              cases next with
              | stay => exact restIh _ _ sound.stay enough
              | up => exact restIh _ _ sound.up enough
              | enter entry =>
                  rw [resolve, resolveWith]
                  cases linked : tree.linkAt ((path ++ [entry]).map label) with
                  | none =>
                      exact restIh _ _ (sound.enter (fun link => absurd linked link)) enough
                  | some target =>
                      cases met : seen.lookup ((path ++ [entry]).map label) with
                      | none =>
                          have fewer := unmet_open linked met
                          exact ih _ _ _ (sound.open labelled linked) (by omega)
                      | some state =>
                          cases state with
                          | none => exact restIh _ _ (sound.enter (fun _ => sound.dead met)) enough
                          | some known => exact restIh _ _ (sound.reuse met) enough

/-- Nothing has been met at the start. -/
theorem sound_start {start : List component} (settled : tree.Settled (start.map label))
    (steps : List (Step component)) : Sound tree label (steps.map .step) start [] :=
  { settled
    awaited := by
      intro before link after shape
      have member : .resolved link ∈ steps.map (@Pending.step name component) := by
        rw [shape]
        exact List.mem_append_right _ List.mem_cons_self
      obtain ⟨step, _, impossible⟩ := List.mem_map.mp member
      cases impossible
    opened := by
      intro link unresolved
      cases unresolved
    known := by
      intro link result resolved
      cases resolved }

theorem trace_settled (labelled : ∀ link named, label (written link named) = named)
    {start : List component} (settled : tree.Settled (start.map label))
    (steps : List (Step component)) :
    tree.Settled ((tree.trace label written start steps).map label) := by
  apply resolve_settled labelled
  · exact sound_start settled steps
  · exact Nat.lt_succ_of_le List.countP_le_length

end Soundness

/-- A path that `realpath` returns leads to itself or nowhere. -/
theorem realpath_lands (steps : List (Step name)) {rounds : Nat} {reached : Location name}
    (found : tree.walk rounds [] (enters (tree.realpath steps)) = some reached) :
    reached = tree.realpath steps := by
  have settled : tree.Settled ((tree.realpath steps).map id) :=
    trace_settled (fun _link _named => rfl) settled_nil steps
  rw [List.map_id] at settled
  exact settled.lands found

theorem realpath_settled (steps : List (Step name)) : tree.Settled (tree.realpath steps) := by
  have settled : tree.Settled ((tree.realpath steps).map id) :=
    trace_settled (fun _link _named => rfl) settled_nil steps
  rwa [List.map_id] at settled

/-! ### Where the components come from -/

section Components

variable {component : Type} {label : component → name}
  {written : Location name → name → component}

/-- Entries that are no links are taken over one by one. -/
theorem resolve_plain (rounds : Nat) (seen : Seen name component)
    (rest : List (Pending name component)) :
    ∀ (entries path : List component),
      (∀ front back, entries = front ++ back → front ≠ [] →
        tree.linkAt ((path ++ front).map label) = none) →
      tree.resolve label written (rounds + 1)
          ((entries.map Step.enter).map .step ++ rest) path seen =
        tree.resolve label written (rounds + 1) rest (path ++ entries) seen := by
  intro entries
  induction entries with
  | nil =>
      intro path _plain
      rw [List.append_nil]
      rfl
  | cons head tail ih =>
      intro path plain
      have first := plain [head] tail rfl (List.cons_ne_nil _ _)
      have later := ih (path ++ [head]) (by
        intro front back shape _filled
        rw [List.append_assoc]
        exact plain (head :: front) back (by rw [shape]; rfl) (List.cons_ne_nil _ _))
      rw [List.append_assoc, List.singleton_append] at later
      rw [← later]
      simp only [List.map_cons, List.cons_append, resolve, resolveWith, first]

omit [DecidableEq name] in
theorem drop_dropLast_subset {kept : Nat} {path : List component} {entry : component}
    (member : entry ∈ path.dropLast.drop kept) : entry ∈ path.drop kept := by
  rw [List.dropLast_eq_take, List.drop_take] at member
  exact List.mem_of_mem_take member

omit [DecidableEq name] in
theorem written_or_later {good : component → Prop} {link : Location name}
    {targetSteps : List (Step name)} {rest : List (Pending name component)} {entry : component}
    (writes : ∀ link named, good (written link named))
    (later : ∀ entry, .step (.enter entry) ∈ rest → good entry)
    (member : .step (.enter entry) ∈
      (targetSteps.map (Step.map (written link))).map .step ++ .resolved link :: rest) :
    good entry := by
  cases List.mem_append.mp member with
  | inl inTarget =>
      obtain ⟨step, isWritten, same⟩ := List.mem_map.mp inTarget
      obtain ⟨original, _, image⟩ := List.mem_map.mp isWritten
      cases same
      cases original with
      | stay => cases image
      | up => cases image
      | enter named =>
          cases image
          exact writes link named
  | inr behind =>
      cases List.mem_cons.mp behind with
      | inl impossible => cases impossible
      | inr inRest => exact later entry inRest

/-- What holds of every component written down holds of what is resolved, past the first
`kept` components. -/
theorem resolve_forall {good : component → Prop} (kept : Nat)
    (writes : ∀ link named, good (written link named)) :
    ∀ (rounds : Nat) (pending : List (Pending name component)) (path : List component)
      (seen : Seen name component),
      (∀ entry, .step (.enter entry) ∈ pending → good entry) →
      (∀ entry ∈ path.drop kept, good entry) →
      (∀ link result, seen.lookup link = some (some result) →
        ∀ entry ∈ result.drop kept, good entry) →
      ∀ entry ∈ (tree.resolve label written rounds pending path seen).drop kept,
        good entry := by
  intro rounds
  induction rounds with
  | zero => intro pending path seen _steps inPath _known; exact inPath
  | succ others ih =>
      intro pending
      induction pending with
      | nil => intro path seen _steps inPath _known; exact inPath
      | cons head rest restIh =>
          intro path seen steps inPath known
          have later : ∀ entry, .step (.enter entry) ∈ rest → good entry :=
            fun entry member => steps entry (List.mem_cons_of_mem _ member)
          cases head with
          | resolved link =>
              apply restIh path _ later inPath
              intro other result resolved
              rw [List.lookup_cons] at resolved
              split at resolved
              · cases resolved
                exact inPath
              · exact known other result resolved
          | step next =>
              cases next with
              | stay => exact restIh path seen later inPath known
              | up =>
                  exact restIh _ seen later
                    (fun entry member => inPath entry (drop_dropLast_subset member)) known
              | enter entry =>
                  have longer : ∀ other ∈ (path ++ [entry]).drop kept, good other := by
                    intro other member
                    rw [List.drop_append] at member
                    cases List.mem_append.mp member with
                    | inl before => exact inPath other before
                    | inr last =>
                        rw [List.mem_singleton.mp (List.mem_of_mem_drop last)]
                        exact steps entry List.mem_cons_self
                  rw [resolve, resolveWith]
                  cases linked : tree.linkAt ((path ++ [entry]).map label) with
                  | none => exact restIh _ seen later longer known
                  | some target =>
                      cases met : seen.lookup ((path ++ [entry]).map label) with
                      | some state =>
                          cases state with
                          | none => exact restIh _ seen later longer known
                          | some result => exact restIh _ seen later (known _ result met) known
                      | none =>
                          apply ih
                          · intro other member
                            exact written_or_later writes later member
                          · unfold Target.start
                            split
                            · intro other member
                              rw [List.drop_nil] at member
                              cases member
                            · exact inPath
                          · intro other result resolved
                            rw [List.lookup_cons] at resolved
                            split at resolved
                            · cases resolved
                            · exact known other result resolved

/-- From a real location on, nothing remains to be resolved. -/
theorem resolve_real (rounds : Nat) (seen : Seen name component)
    (rest : List (Pending name component)) {location : List component}
    (real : tree.IsReal (location.map label)) :
    tree.resolve label written (rounds + 1)
        ((location.map Step.enter).map .step ++ rest) [] seen =
      tree.resolve label written (rounds + 1) rest location seen := by
  apply resolve_plain
  intro front back shape _filled
  rw [List.nil_append]
  rw [shape, List.map_append] at real
  exact real.front.2

theorem realpath_real {location : Location name} (real : tree.IsReal location) :
    tree.realpath (enters location) = location := by
  have whole : tree.resolve id (fun _link entry => entry) (tree.entries.length + 1)
      ((location.map Step.enter).map .step ++ []) [] [] =
      tree.resolve id (fun _link entry => entry) (tree.entries.length + 1) [] location [] :=
    resolve_real _ _ _ (by rw [List.map_id]; exact real)
  rw [List.append_nil] at whole
  exact whole

variable (label) in
def Pending.map : Pending name component → Pending name name
  | .step next => .step (next.map label)
  | .resolved link => .resolved link

omit [DecidableEq name] in
theorem written_names (labelled : ∀ link named, label (written link named) = named)
    (link : Location name) (rest : List (Pending name component)) (steps : List (Step name)) :
    ((steps.map (Step.map (written link))).map Pending.step ++ Pending.resolved link :: rest).map
        (Pending.map label) =
      (steps.map (Step.map id)).map .step ++ .resolved link :: rest.map (Pending.map label) := by
  induction steps with
  | nil => rfl
  | cons step others ih =>
      simp only [List.map_cons, List.cons_append, ih]
      cases step with
      | stay => rfl
      | up => rfl
      | enter entry => simp only [Step.map, Pending.map, labelled, id]

/-- The names of what is resolved are what the names alone resolve to. -/
theorem resolve_names (labelled : ∀ link named, label (written link named) = named) :
    ∀ (rounds : Nat) (pending : List (Pending name component)) (path : List component)
      (seen : Seen name component) (named : Seen name name),
      (∀ link, named.lookup link = (seen.lookup link).map (Option.map (List.map label))) →
      (tree.resolve label written rounds pending path seen).map label =
        tree.resolve id (fun _link entry => entry) rounds (pending.map (Pending.map label))
          (path.map label) named := by
  intro rounds
  induction rounds with
  | zero => intro pending path seen named _same; rfl
  | succ others ih =>
      intro pending
      induction pending with
      | nil => intro path seen named _same; rfl
      | cons head rest restIh =>
          intro path seen named same
          cases head with
          | resolved link =>
              apply restIh path
              intro other
              rw [List.lookup_cons, List.lookup_cons]
              split
              · rfl
              · exact same other
          | step next =>
              cases next with
              | stay => exact restIh path seen named same
              | up =>
                  have later := restIh path.dropLast seen named same
                  rw [List.map_dropLast] at later
                  exact later
              | enter entry =>
                  have here : (path.map label ++ [label entry]).map id =
                      (path ++ [entry]).map label := by
                    rw [List.map_id, List.map_append, List.map_cons, List.map_nil]
                  have longer := restIh (path ++ [entry]) seen named same
                  rw [List.map_append, List.map_cons, List.map_nil] at longer
                  rw [resolve, resolveWith, List.map_cons, Pending.map, Step.map, resolve,
                    resolveWith, here, same]
                  cases linked : tree.linkAt ((path ++ [entry]).map label) with
                  | none => exact longer
                  | some target =>
                      cases met : seen.lookup ((path ++ [entry]).map label) with
                      | some state =>
                          cases state with
                          | none => exact longer
                          | some result => exact restIh result seen named same
                      | none =>
                          have opened := ih
                            ((target.steps.map
                              (Step.map (written ((path ++ [entry]).map label)))).map .step ++
                              .resolved ((path ++ [entry]).map label) :: rest)
                            (target.start path) (((path ++ [entry]).map label, none) :: seen)
                            (((path ++ [entry]).map label, none) :: named)
                            (by
                              intro other
                              rw [List.lookup_cons, List.lookup_cons]
                              split
                              · rfl
                              · exact same other)
                          rw [Target.start_map, written_names labelled] at opened
                          exact opened

theorem trace_names (labelled : ∀ link named, label (written link named) = named)
    {start : List component} (real : tree.IsReal (start.map label))
    (steps : List (Step component)) :
    (tree.trace label written start steps).map label =
      tree.realpath (enters (start.map label) ++ steps.map (Step.map label)) := by
  have names : (tree.trace label written start steps).map label =
      tree.resolve id (fun _link entry => entry) (tree.entries.length + 1)
        ((steps.map .step).map (Pending.map label)) (start.map label) [] :=
    resolve_names labelled _ _ _ _ _ (fun _link => rfl)
  have front : tree.resolve id (fun _link entry => entry) (tree.entries.length + 1)
        (((start.map label).map Step.enter).map .step ++ (steps.map .step).map (Pending.map label))
        [] [] =
      tree.resolve id (fun _link entry => entry) (tree.entries.length + 1)
        ((steps.map .step).map (Pending.map label)) (start.map label) [] :=
    resolve_real _ _ _ (by rw [List.map_id]; exact real)
  have left : (steps.map Pending.step).map (Pending.map label) =
      (steps.map (Step.map label)).map (@Pending.step name name) := by
    rw [List.map_map, List.map_map]
    rfl
  rw [names, ← front, left, ← List.map_append]
  rfl

end Components

/-! ### Making folders -/

variable (tree) in
/-- `mkdir(parents=True, exist_ok=True)` below a real folder: where the folder is then, or
`none` when something other than a folder is in the way. -/
def makeFolders (rounds : Nat) : Location name → List name → Option (Location name)
  | here, [] => some here
  | here, entry :: rest =>
      match tree.node (here ++ [entry]) with
      | none => some (here ++ entry :: rest)
      | some .file => none
      | some .directory => makeFolders rounds (here ++ [entry]) rest
      | some (.link _) =>
          match tree.walk rounds here [.enter entry] with
          | none => none
          | some there =>
              if tree.node there = some .directory then makeFolders rounds there rest else none

/-- Below a settled path folders are made where the path says. -/
theorem makeFolders_settled {rounds : Nat} {made : Location name} :
    ∀ {rest : List name} {here : Location name}, tree.node here = some .directory →
      tree.Settled (here ++ rest) → tree.makeFolders rounds here rest = some made →
      made = here ++ rest := by
  intro rest
  induction rest with
  | nil =>
      intro here _inside _settled found
      rw [List.append_nil]
      exact (Option.some.inj found).symm
  | cons entry later ih =>
      intro here inside settled found
      rw [makeFolders] at found
      split at found
      case h_1 => exact (Option.some.inj found).symm
      case h_2 => cases found
      case h_3 present =>
          rw [← List.singleton_append, ← List.append_assoc] at settled ⊢
          exact ih present settled found
      case h_4 target present =>
          have dead := settled (here ++ [entry]) later
            (by rw [List.append_assoc, List.singleton_append])
            (by rw [(linkAt_eq_some tree).mpr present]; exact Option.some_ne_none _)
          have nowhere := dead rounds
          rw [enters_snoc, walk_real rounds (isReal_of_directory inside)] at nowhere
          rw [nowhere] at found
          cases found

/-- Folders that are there are left alone. -/
theorem makeFolders_directory {rounds : Nat} :
    ∀ {rest here : Location name}, tree.node (here ++ rest) = some .directory →
      tree.makeFolders rounds here rest = some (here ++ rest) := by
  intro rest
  induction rest with
  | nil =>
      intro here _present
      rw [List.append_nil]
      rfl
  | cons entry later ih =>
      intro here present
      rw [← List.singleton_append, ← List.append_assoc] at present
      have first : tree.node (here ++ [entry]) = some .directory := by
        cases later with
        | nil => rwa [List.append_nil] at present
        | cons second others =>
            have shape : here ++ [entry] ++ second :: others =
                (here ++ [entry] ++ [second]) ++ others := by
              rw [List.append_assoc _ [second], List.singleton_append]
            rw [shape] at present
            exact tree.parent_directory_snoc (isReal_of_directory present).front.1
      have below := ih present
      rw [List.append_assoc, List.singleton_append] at below
      rw [makeFolders]
      simp only [first, below]

end FileTree

end Trees

end VaultSearch.Symlinks
