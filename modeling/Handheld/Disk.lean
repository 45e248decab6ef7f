import Handheld.Error

/-!
# Storage

A `Disk` is a tree of files and directories, in which the battery of a cartridge keeps its RAM
while the console is off.  A name is a list of parts between slashes.  `Disk.locate` follows it part
by part, from the directory that holds everything, and fails at the first part that does not lead
on; `Disk.read`, `Disk.write` and `Disk.makeDirectory` work where it ends.  The main statement is
`Disk.read_of_write`: what was written under a name is what is read under that name.
-/

namespace Handheld

/-- What a name on a disk belongs to. -/
inductive DiskEntry
  | file (content : Array UInt8)
  | directory
  deriving DecidableEq

/-- The names of the directories that lead to an entry, and its own.  The empty path is that of the
directory that holds everything. -/
abbrev DiskPath := List String

/-- A tree of files and directories. -/
structure Disk where
  /-- Every entry with its path; of several with the same path the first one counts. -/
  entries : List (DiskPath × DiskEntry) := []
  deriving DecidableEq, Inhabited

namespace Disk

/-! ### Entries -/

/-- What a path belongs to. -/
def find? (d : Disk) (path : DiskPath) : Option DiskEntry :=
  if path = [] then some .directory else d.entries.lookup path

/-- Put an entry in the place of the one with the same path. -/
def put (d : Disk) (path : DiskPath) (e : DiskEntry) : Disk :=
  { entries := (path, e) :: d.entries.filter fun entry => entry.1 != path }

/-! ### Names -/

/-- The most bytes that a name has. -/
def maxNameBytes : Nat := 4095

/-- The most bytes that one part of a name has. -/
def maxPartBytes : Nat := 255

/-- The stretches of a text between its slashes, the empty ones among them. -/
def stretches : List Char → List (List Char)
  | [] => [[]]
  | c :: cs => if c = '/' then [] :: stretches cs else (stretches cs).modifyHead (c :: ·)

/-- The parts of a name.  Nothing has the empty name, and no name holds a null character. -/
def parts (name : String) : Except IoFault (List String) :=
  if name.toList = [] then .error .notFound
  else if Char.ofNat 0 ∈ name.toList then .error .nullInName
  else if maxNameBytes < name.utf8ByteSize then .error .nameTooLong
  else .ok ((stretches name.toList).map String.ofList)

/-- The parts of a name without the slashes that it ends in. -/
def stem (parts : List String) : List String :=
  (parts.reverse.dropWhile (· == "")).reverse

/-- Take one part of a name from a path, which has to be that of a directory.  An empty part and a
single dot stay there, two dots lead back, and any other part names an entry of the directory,
whether there is one or not. -/
def enter (d : Disk) (path : DiskPath) (part : String) : Except IoFault DiskPath :=
  match d.find? path with
  | none => .error .notFound
  | some (.file _) => .error .notDirectory
  | some .directory =>
    if part = "" ∨ part = "." then .ok path
    else if part = ".." then .ok path.dropLast
    else if maxPartBytes < part.utf8ByteSize then .error .nameTooLong
    else .ok (path ++ [part])

/-- Take the parts of a name one after the other. -/
def walk (d : Disk) (path : DiskPath) (parts : List String) : Except IoFault DiskPath :=
  parts.foldlM d.enter path

/-- The path that a name leads to.  A name that ends in a slash leads to directories only. -/
def locate (d : Disk) (name : String) : Except IoFault DiskPath := do
  d.walk [] (← parts name)

/-! ### Operations -/

/-- What a name belongs to. -/
def entry (d : Disk) (name : String) : Except IoFault DiskEntry := do
  match d.find? (← d.locate name) with
  | some e => .ok e
  | none => .error .notFound

/-- Whether there is an entry with a name. -/
def contains (d : Disk) (name : String) : Bool :=
  (d.entry name).toOption.isSome

/-- The content of a file. -/
def read (d : Disk) (name : String) : Except IoFault (Array UInt8) := do
  match ← d.entry name with
  | .file content => .ok content
  | .directory => .error .isDirectory

/-- Replace the content of a file, or create it.  The directory that it belongs to exists already,
and its name does not end in a slash. -/
def write (d : Disk) (name : String) (content : Array UInt8) : Except IoFault Disk := do
  let parts ← parts name
  let path ← d.walk [] (stem parts)
  if d.find? path = some .directory ∨ stem parts ≠ parts then .error .isDirectory
  else .ok (d.put path (.file content))

/-- Create a directory, whose parent exists already; nothing else has its name. -/
def makeDirectory (d : Disk) (name : String) : Except IoFault Disk := do
  let path ← d.walk [] (stem (← parts name))
  if (d.find? path).isSome then .error .alreadyExists else .ok (d.put path .directory)

/-! ### What an operation leaves behind -/

/-- Dropping the entries of one path keeps what all other paths belong to. -/
theorem lookup_filter_ne (entries : List (DiskPath × DiskEntry)) {path path' : DiskPath}
    (h : path' ≠ path) :
    (entries.filter fun entry => entry.1 != path).lookup path' = entries.lookup path' := by
  induction entries with
  | nil => rfl
  | cons entry entries ih =>
    obtain ⟨p, e⟩ := entry
    by_cases hp : p = path
    · subst hp
      have hb : (path' == p) = false := beq_eq_false_iff_ne.mpr h
      simpa [List.lookup_cons, hb] using ih
    · simp only [List.filter_cons, bne_iff_ne, ne_eq, hp, not_false_eq_true, if_true,
        List.lookup_cons, ih]

/-- Putting an entry changes what its own path belongs to, and nothing else. -/
theorem find?_put (d : Disk) (path path' : DiskPath) (e : DiskEntry) (h : path' ≠ []) :
    (d.put path e).find? path' = if path' = path then some e else d.find? path' := by
  simp only [find?, put, h, if_false]
  by_cases hp : path' = path
  · simp [hp]
  · have hb : (path' == path) = false := beq_eq_false_iff_ne.mpr hp
    simp only [List.lookup_cons, hb, hp, if_false]
    exact lookup_filter_ne d.entries hp

/-- What is put at a path that no directory has changes no step that a walk could take before. -/
theorem enter_put {d : Disk} {path p q : DiskPath} {part : String} (e : DiskEntry)
    (hdir : d.find? path ≠ some .directory) (h : d.enter p part = .ok q) :
    (d.put path e).enter p part = .ok q := by
  have hfind : d.find? p = some .directory := by
    unfold enter at h
    split at h <;> simp_all
  have hput : (d.put path e).find? p = some .directory := by
    by_cases hp : p = []
    · simp [find?, hp]
    · rw [find?_put d path p e hp, if_neg, hfind]
      rintro rfl
      exact hdir hfind
  simpa only [enter, hput, hfind] using h

/-- What is put at a path that no directory has changes no walk that led somewhere before. -/
theorem walk_put {d : Disk} {path p q : DiskPath} {parts : List String} (e : DiskEntry)
    (hdir : d.find? path ≠ some .directory) (h : d.walk p parts = .ok q) :
    (d.put path e).walk p parts = .ok q := by
  induction parts generalizing p with
  | nil => exact h
  | cons part parts ih =>
    simp only [walk, List.foldlM_cons] at h ⊢
    cases hstep : d.enter p part with
    | error fault => simp [hstep, bind, Except.bind] at h
    | ok r =>
      rw [hstep] at h
      rw [enter_put e hdir hstep]
      exact ih h

/-- What was written under a name is what is read under that name. -/
theorem read_of_write {d d' : Disk} {name : String} {content : Array UInt8}
    (h : d.write name content = .ok d') : d'.read name = .ok content := by
  unfold write at h
  cases hparts : parts name with
  | error fault => simp [hparts, bind, Except.bind] at h
  | ok ps =>
    cases hwalk : d.walk [] (stem ps) with
    | error fault => simp [hparts, hwalk, bind, Except.bind] at h
    | ok path =>
      simp only [hparts, hwalk, bind, Except.bind] at h
      split at h
      · cases h
      · rename_i hok
        obtain ⟨hdir, hstem⟩ := not_or.mp hok
        rw [Decidable.not_not.mp hstem] at hwalk
        cases h
        have hne : path ≠ [] := fun hp => hdir (by simp [find?, hp])
        simp [read, entry, locate, hparts, bind, Except.bind, walk_put _ hdir hwalk,
          find?_put d path path _ hne]

end Disk

/-- Write bytes to a medium that holds at most `capacity` of them, if it has a limit. -/
def fitting (capacity : Option Nat) (bytes : List UInt8) : Except IoFault (List UInt8) :=
  match capacity with
  | none => .ok bytes
  | some n => if bytes.length ≤ n then .ok bytes else .error .full

end Handheld
