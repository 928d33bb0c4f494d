import RefinetPillars.GopherTransports
import RefinetPillars.PathText

/-!
# The files that a Pillar serves

A selector that no handler takes names a file below the root of the served
files.  The file that is read stays below that root, unless the cleaned selector
is an absolute path into a sibling of the root.
-/

namespace RefinetPillars

namespace StaticFiles

open HexText LineText JsonText PathText GopherTransports

/-- What a path leads to. -/
inductive Kind where
  | file
  | directory
  | other
deriving DecidableEq

structure FileSystem where
  /-- `Path.resolve`. -/
  resolve : Path → Path
  kindAt : Path → Option Kind

/-- What is served: a file, a file with the address of the server filled in, or
the names in a directory. -/
inductive Served where
  | error (message : Text)
  | file (path : Path)
  | menu (path : Path)
  | listing (path : Path)
deriving DecidableEq

/-- The path whose contents are read. -/
def Served.read : Served → Option Path
  | .error _ => none
  | .file path | .menu path | .listing path => some path

/-- What is sent of a download. -/
inductive Download where
  | refused (message : Text)
  | file (path : Path)
deriving DecidableEq

def Download.read : Download → Option Path
  | .refused _ => none
  | .file path => some path

/-- The name of the menu of a directory. -/
def gophermap : Component := ⟨"gophermap".toList, by decide, by decide⟩

/-- The name of the directory of the downloads. -/
def download : Component := ⟨"download".toList, by decide, by decide⟩

/-- `selector.lstrip("/").replace("..", "")`. -/
def clean (selector : Text) : Text :=
  removeAll ['.', '.'] (selector.dropWhile fun character => character = '/')

/-- A path joined with a text; an absolute one replaces the path. -/
def join (root : Path) (text : Text) : Path :=
  if ['/'] <+: text then components text else root ++ components text

section Serving

variable (files : FileSystem) (root : Path)

/-- The path that a selector names. -/
def target (selector : Text) : Path :=
  files.resolve (join root (clean selector))

def serveFile (path : Path) : Served :=
  if path.getLast? = some gophermap then .menu path else .file path

def serveDirectory (path : Path) : Served :=
  if (files.kindAt (path ++ [gophermap])).isSome then
    .menu (path ++ [gophermap])
  else .listing path

/-- `_serve_static`. -/
def serveStatic (selector : Text) : Served :=
  let target := target files root selector
  if ¬ pathText (files.resolve root) <+: pathText target then
    .error ("Not found: ".toList ++ selector)
  else
    match files.kindAt target with
    | none => .error ("Not found: ".toList ++ selector)
    | some .file => serveFile target
    | some .directory => serveDirectory files target
    | some .other => .error ("Unknown: ".toList ++ selector)

/-- `_serve_binary`. -/
def serveBinary (selector : Text) : Download :=
  let target := target files root selector
  let downloadRoot := files.resolve (root ++ [download])
  if ¬ pathText downloadRoot <+: pathText target then
    .refused "3 Access denied".toList
  else if files.kindAt target = some .file then .file target
  else .refused "3 File not found".toList

/-- No symbolic link is on the way below the root. -/
def LinkFree : Prop :=
  ∀ rest : Path, (∀ component ∈ rest, component.name ≠ ['.', '.']) →
    files.resolve (root ++ rest) = files.resolve root ++ rest

/-- What is read for a selector is the root or below it, and a download is below
the directory of the downloads. -/
def ServesInside : Reply → Prop
  | .routed _ (.static selector) =>
      ∀ path ∈ (serveStatic files root selector).read,
        files.resolve root <+: path
  | .binary selector =>
      ∀ path ∈ (serveBinary files root selector).read,
        files.resolve root ++ [download] <+: path
  | .routed _ _ | .unrouted => True

/-- A cleaned selector is the absolute path of a file or a directory within a
sibling of the root whose name starts with the name of the root. -/
def Escapes (selector : Text) : Prop :=
  ['/'] <+: clean selector ∧
    (∃ kind ∈ files.kindAt (files.resolve (components (clean selector))),
      kind ≠ .other) ∧
    WithinSibling (files.resolve root)
      (files.resolve (components (clean selector)))

end Serving

section Reading

variable {files : FileSystem} {root path : Path} {selector : Text}

theorem read_serveFile (path : Path) : (serveFile path).read = some path := by
  rw [serveFile]
  split <;> rfl

/-- In a directory, the menu or the directory itself is read. -/
theorem exists_read_serveDirectory (path : Path) :
    ∃ more, (serveDirectory files path).read = some (path ++ more) := by
  rw [serveDirectory]
  split
  · exact ⟨[gophermap], rfl⟩
  · exact ⟨[], congrArg some (List.append_nil path).symm⟩

/-- What is read is what the selector names, or a menu in it. -/
theorem target_prefix_of_read
    (read : path ∈ (serveStatic files root selector).read) :
    pathText (files.resolve root) <+: pathText (target files root selector) ∧
      (∃ kind ∈ files.kindAt (target files root selector), kind ≠ .other) ∧
      target files root selector <+: path := by
  rw [serveStatic] at read
  split at read
  next => cases read
  next passed =>
    refine ⟨not_not.mp passed, ?_⟩
    split at read
    next => cases read
    next found =>
      rw [read_serveFile] at read
      cases read
      exact ⟨⟨_, found, by simp⟩, List.prefix_refl _⟩
    next found =>
      obtain ⟨more, reads⟩ := @exists_read_serveDirectory files
        (target files root selector)
      rw [reads] at read
      cases read
      exact ⟨⟨_, found, by simp⟩, List.prefix_append _ _⟩
    next => cases read

/-- A file or a directory whose path starts like the root is read. -/
theorem exists_read_of_target {kind : Kind}
    (passed :
      pathText (files.resolve root) <+: pathText (target files root selector))
    (found : kind ∈ files.kindAt (target files root selector))
    (readable : kind ≠ .other) :
    ∃ more, (serveStatic files root selector).read =
      some (target files root selector ++ more) := by
  rw [serveStatic, if_neg (not_not.mpr passed), Option.mem_def.mp found]
  cases kind with
  | file =>
      refine ⟨[], ?_⟩
      rw [List.append_nil]
      exact read_serveFile _
  | directory => exact exists_read_serveDirectory _
  | other => exact absurd rfl readable

end Reading

section Containment

variable {files : FileSystem} {root path : Path} {selector : Text}

theorem name_ne_dots_of_mem_clean {component : Component}
    (member : component ∈ components (clean selector)) :
    component.name ≠ ['.', '.'] := by
  intro dots
  have inside := infix_of_mem_components member
  rw [dots] at inside
  exact not_infix_removeAll _ inside

theorem target_of_absolute (absolute : ['/'] <+: clean selector) :
    target files root selector =
      files.resolve (components (clean selector)) := by
  rw [target, join, if_pos absolute]

/-- A selector that is no absolute path leads below the root. -/
theorem target_of_relative (linkFree : LinkFree files root)
    (relative : ¬ ['/'] <+: clean selector) :
    target files root selector =
      files.resolve root ++ components (clean selector) := by
  rw [target, join, if_neg relative]
  exact linkFree _ fun _ => name_ne_dots_of_mem_clean

/-- What is served as it is stays inside unless the selector escapes. -/
theorem read_inside_iff (linkFree : LinkFree files root) :
    (∀ path ∈ (serveStatic files root selector).read,
      files.resolve root <+: path) ↔ ¬ Escapes files root selector := by
  constructor
  · rintro inside ⟨absolute, ⟨kind, found, readable⟩, within⟩
    rw [← @target_of_absolute files root selector absolute] at found within
    have passed := pathText_prefix_iff.mpr (.inr within)
    obtain ⟨more, reads⟩ := exists_read_of_target passed found readable
    exact (within.append more).not_below (inside _ reads)
  · intro stays path read
    obtain ⟨passed, exists_kind, onTheWay⟩ := target_prefix_of_read read
    by_cases absolute : ['/'] <+: clean selector
    · rcases pathText_prefix_iff.mp passed with below | within
      · exact below.trans onTheWay
      · rw [target_of_absolute absolute] at exists_kind within
        exact absurd ⟨absolute, exists_kind, within⟩ stays
    · rw [target_of_relative linkFree absolute] at onTheWay
      exact (List.prefix_append _ _).trans onTheWay

/-- The selector of a download names a path below the downloads. -/
theorem clean_download (starts : HttpGateway.downloadRoute <+: selector) :
    ∃ rest, clean selector = download.name ++ '/' :: rest := by
  obtain ⟨rest, rfl⟩ := starts
  refine ⟨removeAll ['.', '.'] rest, ?_⟩
  have route : HttpGateway.downloadRoute =
      '/' :: 'd' :: "ownload".toList ++ ['/'] := by decide +kernel
  have stripped : (HttpGateway.downloadRoute ++ rest).dropWhile
      (fun character => character = '/') =
        download.name ++ '/' :: rest := by
    rw [route, List.append_assoc, List.cons_append,
      List.dropWhile_cons_of_pos (by simp), List.cons_append,
      List.dropWhile_cons_of_neg (by simp)]
    rfl
  have kept : '.' ∉ download.name ++ ['/'] := by decide
  rw [clean, stripped, List.append_cons, removeAll_append kept,
    ← List.append_cons]

theorem target_of_download (linkFree : LinkFree files root)
    (starts : HttpGateway.downloadRoute <+: selector) :
    files.resolve root ++ [download] <+: target files root selector := by
  obtain ⟨rest, cleaned⟩ := clean_download starts
  have relative : ¬ ['/'] <+: clean selector := by
    rw [cleaned]
    intro absolute
    exact absurd (List.cons_prefix_cons.mp absolute).1 (by decide)
  rw [target_of_relative linkFree relative, cleaned,
    components_append_slash (by decide), List.prefix_append_right_inj]
  exact ⟨_, rfl⟩

/-- A download is below the directory of the downloads. -/
theorem read_download_inside (linkFree : LinkFree files root)
    (starts : HttpGateway.downloadRoute <+: selector)
    (read : path ∈ (serveBinary files root selector).read) :
    files.resolve root ++ [download] <+: path := by
  rw [serveBinary] at read
  split at read
  · cases read
  · split at read
    · cases read
      exact target_of_download linkFree starts
    · cases read

end Containment

section Transports

variable {netlocAccepted : Text → Bool} {floatRepr : Text → Text}
  {isSession : Json → Bool} {server : GopherRoutes.Server}

/-- Only downloads are sent as they are. -/
theorem downloadRoute_of_binary {request : Request} {selector : Text}
    (served : serve netlocAccepted floatRepr isSession server request =
      .binary selector) : HttpGateway.downloadRoute <+: selector := by
  cases request with
  | gopher line =>
      rw [serve, handleClient] at served
      split at served
      next taken =>
        cases served
        exact taken.1
      next => cases served
  | http method target isAllowed =>
      rw [serve, handleRequest] at served
      split at served <;> cases served
  | webSocket message =>
      rw [serve, handleMessage] at served
      split at served
      · split at served
        · cases served
        · split at served <;> cases served
      · cases served

end Transports

section Sibling

/-- A file system without links, with one file beside the served files. -/
def siblingFiles : FileSystem where
  resolve := id
  kindAt path :=
    if path = components "/srv/gopherroot-old/notes.txt".toList then some .file
    else none

def servedRoot : Path := components "/srv/gopherroot".toList

/-- The selector `../srv/gopherroot-old/notes.txt`, sent over Gopher. -/
def siblingReply : Reply :=
  serve (fun _ => true) id (fun _ => true) ⟨false, true, fun _ => false⟩
    (.gopher (KeyRecovery.encodeUtf8
      ("../srv/gopherroot-old/notes.txt".toList ++ crlf)))

theorem siblingFiles_linkFree : LinkFree siblingFiles servedRoot := by
  intro rest _
  rfl

theorem siblingReply_eq :
    siblingReply = .routed "../srv/gopherroot-old/notes.txt".toList
      (.static "../srv/gopherroot-old/notes.txt".toList) := by
  decide +kernel

end Sibling

end StaticFiles

end RefinetPillars
