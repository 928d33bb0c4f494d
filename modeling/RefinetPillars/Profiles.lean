import RefinetPillars.JsonText
import RefinetPillars.LineText
import RefinetPillars.RunHistory

/-!
# Profiles

A Pillar may have several identities, each in a directory of its own.  The name
of a profile is compared as it is written, but its directory is named by the
letters and digits of it.
-/

namespace RefinetPillars

namespace Profiles

open HexText JsonText LineText RunHistory

inductive Raised where
  | valueError (message : Text)
deriving DecidableEq

/-- The directory of a profile: the file `pid.json`, if there is one, and what
it holds, if that is JSON. -/
structure Directory where
  pidFile : Option (Option Json)

/-- The directories below `profiles`, the file that names the active profile,
and the identity of an older release. -/
structure Home where
  profiles : Text → Option Directory
  activeFile : Option Text
  legacyPid : Option (Option Json)

/-- `load_pid`; null stands for None. -/
def loadPid (file : Option (Option Json)) : Json := (file.getD none).getD .null

def defaultName : Text := "default".toList

/-- The line ends of a text as they are read. -/
def universalNewlines : Text → Text
  | [] => []
  | [last] => if last.toNat = 13 then [Char.ofNat 10] else [last]
  | first :: second :: rest =>
      if first.toNat = 13 then
        if second.toNat = 10 then Char.ofNat 10 :: universalNewlines rest
        else Char.ofNat 10 :: universalNewlines (second :: rest)
      else first :: universalNewlines (second :: rest)

/-- `get_active_profile`. -/
def getActiveProfile (home : Home) : Text :=
  match home.activeFile with
  | none => defaultName
  | some content =>
      let name := strip (universalNewlines content)
      if name = [] then defaultName else name

/-- `str.isalnum` of a character is taken from elsewhere. -/
abbrev Letters := Char → Bool

section Operations

variable (isAlnum : Letters)

def safeName (name : Text) : Text :=
  name.filter fun character =>
    isAlnum character || character = '-' || character = '_'

/-- `_profile_dir`: the name of the directory. -/
def profileDir (name : Text) : Except Raised Text :=
  if safeName isAlnum name = [] then
    .error (.valueError
      "Profile name must contain alphanumeric characters".toList)
  else .ok (safeName isAlnum name)

def quoted (name : Text) (problem : String) : Raised :=
  .valueError ("Profile '".toList ++ name ++ "' ".toList ++ problem.toList)

def hasPid (directory : Option Directory) : Bool :=
  directory.any fun directory => directory.pidFile.isSome

/-- Write `pid.json` of a directory, which is made if need be. -/
def savePid (directory : Text) (data : Json) (home : Home) : Home :=
  { home with
    profiles := Function.update home.profiles directory
      (some ⟨some (some data)⟩) }

/-- What a call returns or raises, and what it leaves. -/
abbrev Result (Value : Type) := Except Raised Value × Home

def createProfile (name : Text) (generated : Json) (home : Home) :
    Result Json :=
  match profileDir isAlnum name with
  | .error raised => (.error raised, home)
  | .ok directory =>
      if hasPid (home.profiles directory) then
        (.error (quoted name "already exists"), home)
      else (.ok generated, savePid directory generated home)

def deleteProfile (name : Text) (home : Home) : Result Unit :=
  if name = getActiveProfile home then
    (.error (.valueError
      "Cannot delete the active profile. Switch to another first.".toList),
      home)
  else
    match profileDir isAlnum name with
    | .error raised => (.error raised, home)
    | .ok directory =>
        if home.profiles directory = none then
          (.error (quoted name "does not exist"), home)
        else
          (.ok (), { home with
            profiles := Function.update home.profiles directory none })

def switchProfile (name : Text) (home : Home) : Result Json :=
  match profileDir isAlnum name with
  | .error raised => (.error raised, home)
  | .ok directory =>
      match home.profiles directory with
      | some ⟨some file⟩ =>
          match loadPid (some file) with
          | .null => (.error (quoted name "has corrupted PID data"), home)
          | data => (.ok data, { home with activeFile := some name })
      | _ => (.error (quoted name "does not exist"), home)

/-- A new default profile, which becomes the active one. -/
def createActive (name : Text) (generated : Json) (home : Home) :
    Result Json :=
  match createProfile isAlnum name generated home with
  | (.error raised, after) => (.error raised, after)
  | (.ok data, after) => (.ok data, { after with activeFile := some name })

def getActivePid (generated : Json) (home : Home) : Result Json :=
  let name := getActiveProfile home
  match profileDir isAlnum name with
  | .error raised => (.error raised, home)
  | .ok directory =>
      match home.profiles directory with
      | some ⟨some file⟩ => (.ok (loadPid (some file)), home)
      | _ =>
          let legacy := loadPid home.legacyPid
          if name = defaultName ∧ legacy.isFalsy = false then
            (.ok legacy, savePid directory legacy home)
          else createActive isAlnum name generated home

/-- A call; a new identity is generated with random numbers. -/
inductive Call where
  | create (name : Text) (generated : Json)
  | switch (name : Text)
  | delete (name : Text)
  | activePid (generated : Json)

/-- The profiles after a call. -/
def Call.apply : Call → Home → Home
  | .create name generated, home =>
      (createProfile isAlnum name generated home).2
  | .switch name, home => (switchProfile isAlnum name home).2
  | .delete name, home => (deleteProfile isAlnum name home).2
  | .activePid generated, home => (getActivePid isAlnum generated home).2

end Operations

section Protection

variable (isAlnum : Letters)

/-- A deletion leaves the directory of the active profile, and refuses its name
however that is written. -/
structure KeepsActive (name : Text) (home : Home) : Prop where
  kept : ∀ directory,
    profileDir isAlnum (getActiveProfile home) = .ok directory →
    (deleteProfile isAlnum name home).2.profiles directory =
      home.profiles directory
  refused : ∀ directory,
    profileDir isAlnum (getActiveProfile home) = .ok directory →
    profileDir isAlnum name = .ok directory →
    ∃ message, deleteProfile isAlnum name home =
      (.error (.valueError message), home)

/-- The name is the active one letter by letter, or stands for another
directory or for none. -/
def NamesPlainly (name : Text) (home : Home) : Prop :=
  name = getActiveProfile home ∨
    safeName isAlnum name ≠ safeName isAlnum (getActiveProfile home) ∨
    safeName isAlnum name = [] ∨
    home.profiles (safeName isAlnum name) = none

/-- A condition on the deletions of a run. -/
def OnDeletions (condition : Text → Home → Prop) : Call → Home → Prop
  | .delete name, home => condition name home
  | _, _ => True

variable {isAlnum}

theorem profileDir_eq_ok {name directory : Text} :
    profileDir isAlnum name = .ok directory ↔
      safeName isAlnum name = directory ∧ directory ≠ [] := by
  rw [profileDir]
  split
  next empty => simp [empty, eq_comm]
  next nonempty =>
    rw [Except.ok.injEq]
    constructor
    · rintro rfl
      exact ⟨rfl, nonempty⟩
    · exact And.left

/-- What a deletion does. -/
theorem deleteProfile_cases (name : Text) (home : Home) :
    ((name = getActiveProfile home ∨ safeName isAlnum name = [] ∨
        home.profiles (safeName isAlnum name) = none) ∧
      ∃ message, deleteProfile isAlnum name home =
        (.error (.valueError message), home)) ∨
      name ≠ getActiveProfile home ∧ safeName isAlnum name ≠ [] ∧
        home.profiles (safeName isAlnum name) ≠ none ∧
        deleteProfile isAlnum name home = (.ok (), { home with
          profiles := Function.update home.profiles (safeName isAlnum name)
            none }) := by
  rw [deleteProfile, profileDir]
  by_cases active : name = getActiveProfile home
  · rw [if_pos active]
    exact Or.inl ⟨Or.inl active, _, rfl⟩
  rw [if_neg active]
  by_cases empty : safeName isAlnum name = []
  · rw [if_pos empty]
    exact Or.inl ⟨Or.inr (Or.inl empty), _, rfl⟩
  rw [if_neg empty]
  by_cases absent : home.profiles (safeName isAlnum name) = none
  · dsimp only
    rw [if_pos absent]
    exact Or.inl ⟨Or.inr (Or.inr absent), _, rfl⟩
  · dsimp only
    rw [if_neg absent]
    exact Or.inr ⟨active, empty, absent, rfl⟩

theorem keepsActive_iff (name : Text) (home : Home) :
    KeepsActive isAlnum name home ↔ NamesPlainly isAlnum name home := by
  rcases @deleteProfile_cases isAlnum name home with
    ⟨plain, message, refused⟩ | ⟨different, nonempty, present, deleted⟩
  · constructor
    · intro _
      rcases plain with active | empty | absent
      · exact Or.inl active
      · exact Or.inr (Or.inr (Or.inl empty))
      · exact Or.inr (Or.inr (Or.inr absent))
    · intro _
      exact ⟨fun _ _ => by rw [refused], fun _ _ _ => ⟨message, refused⟩⟩
  · have plain : NamesPlainly isAlnum name home ↔
        safeName isAlnum name ≠ safeName isAlnum (getActiveProfile home) := by
      simp [NamesPlainly, different, nonempty, present]
    rw [plain]
    constructor
    · intro keeps same
      obtain ⟨message, refused⟩ := keeps.refused (safeName isAlnum name)
        (profileDir_eq_ok.mpr ⟨same.symm, nonempty⟩)
        (profileDir_eq_ok.mpr ⟨rfl, nonempty⟩)
      rw [deleted] at refused
      cases (Prod.mk.inj refused).1
    · intro apart
      constructor
      case kept =>
        intro directory active
        obtain ⟨rfl, -⟩ := profileDir_eq_ok.mp active
        rw [deleted]
        exact Function.update_of_ne apart.symm _ _
      case refused =>
        intro directory active named
        obtain ⟨rfl, -⟩ := profileDir_eq_ok.mp active
        exact (apart (profileDir_eq_ok.mp named).1).elim

/-- In every run the deletions keep the active profile exactly as far as they
name the profiles plainly. -/
theorem activeKept_iff (isAlnum : Letters) (start : Home) (calls : List Call) :
    Admitted (Call.apply isAlnum) start
        (OnDeletions (KeepsActive isAlnum)) calls ↔
      Admitted (Call.apply isAlnum) start
        (OnDeletions (NamesPlainly isAlnum)) calls := by
  have same : OnDeletions (KeepsActive isAlnum) =
      OnDeletions (NamesPlainly isAlnum) := by
    funext call home
    cases call with
    | delete name => exact propext (keepsActive_iff name home)
    | create => rfl
    | switch => rfl
    | activePid => rfl
  rw [same]

end Protection

section Samples

def freshHome : Home := ⟨fun _ => none, none, none⟩

def workName : Text := "work".toList

/-- The same name with a character that no directory has. -/
def misspelled : Text := "work!".toList

theorem profileDir_workName : profileDir Char.isAlphanum workName =
    .ok workName :=
  profileDir_eq_ok.mpr ⟨by decide +kernel, by decide +kernel⟩

theorem profileDir_misspelled : profileDir Char.isAlphanum misspelled =
    .ok workName :=
  profileDir_eq_ok.mpr ⟨by decide +kernel, by decide +kernel⟩

/-- The profile is there and is the active one. -/
def workHome : Home where
  profiles := Function.update freshHome.profiles workName
    (some ⟨some (some (.str []))⟩)
  activeFile := some workName
  legacyPid := none

theorem getActiveProfile_workHome : getActiveProfile workHome = workName := by
  change (if strip (universalNewlines workName) = [] then defaultName
    else strip (universalNewlines workName)) = workName
  decide +kernel

/-- A profile is made and becomes the active one, newest call first. -/
theorem run_workHome :
    run (Call.apply Char.isAlphanum) freshHome
      [.switch workName, .create workName (.str [])] = workHome := by
  have created : Call.apply Char.isAlphanum (.create workName (.str []))
      freshHome = savePid workName (.str []) freshHome := by
    rw [Call.apply, createProfile, profileDir_workName]
    rfl
  have stored : (savePid workName (.str []) freshHome).profiles workName =
      some ⟨some (some (.str []))⟩ := by
    simp [savePid]
  rw [run_cons, run_cons, run_nil, created, Call.apply, switchProfile,
    profileDir_workName]
  dsimp only
  rw [stored]
  rfl

/-- Deleting it under another name removes its directory, although it is the
active one. -/
theorem active_deleted :
    getActiveProfile (run (Call.apply Char.isAlphanum) freshHome
        [.switch workName, .create workName (.str [])]) = workName ∧
      (run (Call.apply Char.isAlphanum) freshHome
        [.delete misspelled, .switch workName,
          .create workName (.str [])]).profiles workName = none ∧
      ¬ Admitted (Call.apply Char.isAlphanum) freshHome
        (OnDeletions (KeepsActive Char.isAlphanum))
        [.delete misspelled, .switch workName,
          .create workName (.str [])] := by
  have present : workHome.profiles workName ≠ none := by
    simp [workHome]
  have removed : (deleteProfile Char.isAlphanum misspelled
      workHome).2.profiles workName = none := by
    have different : misspelled ≠ workName := by decide +kernel
    rw [deleteProfile, getActiveProfile_workHome, if_neg different,
      profileDir_misspelled]
    dsimp only
    rw [if_neg present]
    simp
  refine ⟨by rw [run_workHome, getActiveProfile_workHome], ?_, ?_⟩
  · rw [run_cons, run_workHome]
    exact removed
  · intro admitted
    have keeps := admitted (.delete misspelled)
      [.switch workName, .create workName (.str [])] List.suffix_rfl
    rw [run_workHome] at keeps
    have kept := keeps.kept workName
      (by rw [getActiveProfile_workHome, profileDir_workName])
    exact present (kept.symm.trans removed)

end Samples

end Profiles

end RefinetPillars
