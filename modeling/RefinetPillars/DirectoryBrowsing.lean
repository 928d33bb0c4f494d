import RefinetPillars.GopherMenus
import RefinetPillars.StaticFiles
import RefinetPillars.TransportAgreement

/-!
# Browsing through automatic listings

A directory without a menu of its own is answered with a listing of its names,
each with a selector.  A client that follows these links comes to exactly what
the listings show, and each selector is answered with the entry that it was
listed for, unless the name of the entry has two dots in a row.
-/

namespace RefinetPillars

namespace DirectoryBrowsing

open DecimalText GopherMenus GopherRoutes GopherTransports HexText LineText
open PathText Relation StaticFiles Utf8Text
open KeyRecovery (encodeUtf8)

/-- A Pillar and the files that it serves. -/
structure Site where
  files : FileSystem
  root : Path
  server : Server
  hostname : Text
  port : Int
  /-- The names in a directory, sorted. -/
  names : Path → List Component

section Listings

def isShown (name : Component) : Bool :=
  name.name.head? ≠ some '.' ∧ name ≠ gophermap

/-- The selector of an entry of a directory. -/
def entrySelector (selector : Text) (name : Component) : Text :=
  selector.rdropWhile (· = '/') ++ '/' :: name.name

namespace Site

variable (site : Site)

def entryLine (dir : Path) (selector : Text) (name : Component) : Text :=
  if site.files.kindAt (dir ++ [name]) = some .directory then
    (Line.menuLink ("  ".toList ++ (name.name ++ ['/']))
      (entrySelector selector name) site.hostname (.integer site.port)).body
  else
    '0' :: [tab].intercalate ["  ".toList ++ name.name,
      entrySelector selector name, site.hostname, intText site.port]

def directoryLines (dir : Path) (selector : Text) : List Text :=
  [(Line.infoLine ("  Directory: ".toList ++ selector)).body, separator.body,
      (Line.infoLine []).body] ++
    ((site.names dir).filter isShown).map (site.entryLine dir selector) ++
    [(Line.infoLine []).body, (backToRoot site.hostname site.port).body]

/-- `_auto_directory`. -/
def autoDirectory (dir : Path) (selector : Text) : Text :=
  ((site.directoryLines dir selector).map (· ++ crlf)).flatten ++ ('.' :: crlf)

/-- What is served from the files for a selector that a client sends, and the
selector by which it is found. -/
def answer (selector : Text) : Option (Text × Served) :=
  match handleClient site.server (encodeUtf8 (selector ++ crlf)) with
  | .routed _ (.static found) =>
      some (found, serveStatic site.files site.root found)
  | _ => none

/-- Where the links of a listing lead, apart from the one to the root. -/
def links (selector : Text) : List Text :=
  match site.answer selector with
  | some (found, .listing dir) =>
      ((parse (site.autoDirectory dir found)).menuItems.map
        GophermapItem.selector).filter (· ≠ ['/'])
  | _ => []

def Follows (first second : Text) : Prop := second ∈ site.links first

end Site

end Listings

section Specification

namespace Site

variable (site : Site)

/-- Where a path below the served files is. -/
def place (path : Path) : Path := site.files.resolve site.root ++ path

/-- A directory without a menu of its own. -/
def IsListed (path : Path) : Prop :=
  site.files.kindAt (site.place path) = some .directory ∧
    site.files.kindAt (site.place path ++ [gophermap]) = none

/-- What lies below a path and is shown by every listing on the way. -/
inductive Shown (start : Path) : Path → Prop where
  | start : Shown start start
  | entry {path : Path} {name : Component} (onTheWay : Shown start path)
      (listed : site.IsListed path)
      (member : name ∈ site.names (site.place path))
      (shown : isShown name = true) : Shown start (path ++ [name])

/-- What is served of a path. -/
def serveAt (path : Path) : Served :=
  match site.files.kindAt (site.place path) with
  | none => .error ("Not found: ".toList ++ flat path)
  | some .file => serveFile (site.place path)
  | some .directory => serveDirectory site.files (site.place path)
  | some .other => .error ("Unknown: ".toList ++ flat path)

/-- No handler takes a selector. -/
structure Unshadowed (selector : Text) : Prop where
  notBinary : ¬ (HttpGateway.downloadRoute <+: selector ∧
    ∃ extension ∈ binaryExtensions, extension <:+ selector)
  static : route site.server selector = .static selector

end Site

/-- A name that survives in a selector, without its dots being looked at. -/
structure IsWritable (name : Component) : Prop where
  notSelf : name.name ≠ ['.']
  inert : IsInert name.name
  ended : ∀ last ∈ name.name.getLast?, isSpace last = false

def HasDots (name : Component) : Prop := ['.', '.'] <:+: name.name

/-- The links of the listings from a path on lead to what they show. -/
structure Browses (site : Site) (start : Path) : Prop where
  reached : ∀ selector, ReflTransGen site.Follows (flat start) selector ↔
    ∃ path, site.Shown start path ∧ selector = flat path
  served : ∀ path, site.Shown start path →
    site.answer (flat path) = some (flat path, site.serveAt path)

end Specification

section Selectors

variable {path : Path} {name : Component}

theorem flat_concat (path : Path) (name : Component) :
    flat (path ++ [name]) = flat path ++ '/' :: name.name := by
  rw [flat_append, flat_cons]
  exact congrArg _ (List.append_nil _)

/-- A selector of a path ends like the last name. -/
theorem exists_last_flat (nonempty : path ≠ []) :
    ∃ front last, ∃ name ∈ path, flat path = front ++ [last] ∧
      last ∈ name.name.getLast? ∧ last ≠ '/' := by
  obtain ⟨init, name, rfl⟩ := List.eq_nil_or_concat path
    |>.resolve_left nonempty
  obtain ⟨front, last, split⟩ := List.eq_nil_or_concat name.name
    |>.resolve_left name.nonempty
  rw [List.concat_eq_append] at split ⊢
  refine ⟨flat init ++ '/' :: front, last, name, by simp, ?_, ?_, ?_⟩
  · rw [flat_concat, split]
    simp
  · rw [split, List.getLast?_concat]
    rfl
  · rintro rfl
    exact name.noSlash (by simp [split])

theorem entrySelector_flat (nonempty : path ≠ []) (name : Component) :
    entrySelector (flat path) name = flat (path ++ [name]) := by
  obtain ⟨front, last, -, -, split, -, notSlash⟩ := exists_last_flat nonempty
  rw [entrySelector, flat_concat, split,
    List.rdropWhile_concat_neg _ _ _ (by simpa using notSlash)]

theorem strip_flat (ended : ∀ name ∈ path,
    ∀ last ∈ name.name.getLast?, isSpace last = false) :
    strip (flat path) = flat path := by
  by_cases nonempty : path = []
  · rw [nonempty]
    rfl
  · apply strip_eq_self
    · intro first atHead
      rw [head?_flat atHead]
      decide
    · obtain ⟨front, last, name, member, split, atEnd, -⟩ :=
        exists_last_flat nonempty
      rw [split, List.getLast?_concat]
      rintro _ ⟨⟩
      exact ended name member _ atEnd

theorem flat_ne_root (nonempty : path ≠ []) : flat path ≠ ['/'] := by
  obtain ⟨front, last, -, -, split, -, notSlash⟩ := exists_last_flat nonempty
  rw [split]
  intro same
  have ends := congrArg List.getLast? same
  rw [List.getLast?_concat] at ends
  exact notSlash (Option.some.inj ends)

theorem parts_of_noSlash {text : Text} (noSlash : '/' ∉ text) :
    parts text = [text] := by
  induction text with
  | nil => rfl
  | cons first text ih =>
      have kept : first ≠ '/' := by
        rintro rfl
        simp at noSlash
      rw [parts, if_neg kept,
        ih fun member => noSlash (List.mem_cons_of_mem _ member)]

theorem components_name (notSelf : name.name ≠ ['.']) :
    components name.name = [name] := by
  have named : toComponent name.name = some name := by
    rw [toComponent, dif_pos ⟨name.nonempty, name.noSlash⟩, if_neg notSelf]
  rw [components, parts_of_noSlash name.noSlash,
    List.filterMap_cons_some named, List.filterMap_nil]

/-- The names in a text are those that were written. -/
theorem components_flat (notSelf : ∀ other ∈ name :: path,
    other.name ≠ ['.']) :
    components (name.name ++ flat path) = name :: path := by
  induction path generalizing name with
  | nil =>
      rw [flat, List.flatMap_nil, List.append_nil]
      exact components_name (notSelf name (.head _))
  | cons next path ih =>
      rw [flat_cons, List.cons_append,
        components_append_slash (notSelf name (.head _)),
        ih fun other member => notSelf other (.tail _ member)]

/-- Removing pairs of dots leaves a text without such a pair. -/
theorem removeAll_append_of_noDots {text rest : Text}
    (noDots : ¬ ['.', '.'] <:+: text)
    (starts : ∀ first ∈ rest.head?, first ≠ '.') :
    removeAll ['.', '.'] (text ++ rest) =
      text ++ removeAll ['.', '.'] rest := by
  induction text with
  | nil => rfl
  | cons first text ih =>
      have single : ¬ ['.', '.'] <+: first :: (text ++ rest) := by
        intro dots
        obtain ⟨rfl, next⟩ := List.cons_prefix_cons.mp dots
        cases text with
        | nil =>
            obtain ⟨more, same⟩ := next
            exact starts '.' (by rw [← same.trans (List.nil_append _)]; rfl) rfl
        | cons second text =>
            obtain ⟨rfl, -⟩ := List.cons_prefix_cons.mp next
            exact noDots ⟨[], text, rfl⟩
      rw [List.cons_append, removeAll_cons single,
        ih fun inside => noDots (List.infix_cons inside)]
      rfl

theorem removeAll_flat (noDots : ∀ name ∈ path, ¬ HasDots name) :
    removeAll ['.', '.'] (flat path) = flat path := by
  induction path with
  | nil => rfl
  | cons name path ih =>
      have single : ¬ ['.', '.'] <+: '/' :: (name.name ++ flat path) :=
        fun dots => absurd (List.cons_prefix_cons.mp dots).1 (by decide)
      rw [flat_cons, List.cons_append, removeAll_cons single,
        removeAll_append_of_noDots (noDots name (.head _)) ?_,
        ih fun other member => noDots other (.tail _ member)]
      intro first atHead
      rw [head?_flat atHead]
      decide

theorem head_ne_slash (name : Component) {first : Char} {rest : Text}
    (split : name.name = first :: rest) : first ≠ '/' := by
  rintro rfl
  exact name.noSlash (by simp [split])

/-- The slash before the first name is removed from a selector. -/
theorem clean_flat_cons (name : Component) (path : Path) :
    clean (flat (name :: path)) =
      removeAll ['.', '.'] (name.name ++ flat path) := by
  obtain ⟨first, rest, split⟩ := List.exists_cons_of_ne_nil name.nonempty
  have kept := head_ne_slash name split
  rw [clean, flat_cons, List.cons_append, List.dropWhile_cons_of_pos (by simp),
    split, List.cons_append, List.dropWhile_cons_of_neg (by simpa using kept)]

theorem clean_flat (noDots : ¬ HasDots name) :
    clean (flat (name :: path)) =
      name.name ++ removeAll ['.', '.'] (flat path) := by
  rw [clean_flat_cons, removeAll_append_of_noDots noDots]
  intro first atHead
  rw [head?_flat atHead]
  decide

/-- The selector of a path is no absolute path. -/
theorem clean_relative (noDots : ¬ HasDots name) :
    ¬ ['/'] <+: clean (flat (name :: path)) := by
  obtain ⟨first, rest, split⟩ := List.exists_cons_of_ne_nil name.nonempty
  rw [clean_flat noDots, split]
  intro starts
  exact head_ne_slash name split (List.cons_prefix_cons.mp starts).1.symm

end Selectors

section Answers

variable {site : Site} {path : Path}

/-- The selector of a path names the path. -/
theorem target_flat (linkFree : LinkFree site.files site.root)
    (nonempty : path ≠ []) (writable : ∀ name ∈ path, IsWritable name)
    (noDots : ∀ name ∈ path, ¬ HasDots name) :
    target site.files site.root (flat path) = site.place path := by
  obtain ⟨name, path, rfl⟩ := List.exists_cons_of_ne_nil nonempty
  have first := noDots name (.head _)
  rw [target_of_relative linkFree (clean_relative first), clean_flat first,
    removeAll_flat fun other member => noDots other (.tail _ member),
    components_flat fun other member => (writable other member).notSelf]
  rfl

theorem serveStatic_flat (linkFree : LinkFree site.files site.root)
    (nonempty : path ≠ []) (writable : ∀ name ∈ path, IsWritable name)
    (noDots : ∀ name ∈ path, ¬ HasDots name) :
    serveStatic site.files site.root (flat path) = site.serveAt path := by
  have below : pathText (site.files.resolve site.root) <+:
      pathText (site.place path) :=
    pathText_prefix_iff.mpr (.inl (List.prefix_append _ _))
  rw [serveStatic, target_flat linkFree nonempty writable noDots,
    if_neg (not_not.mpr below)]
  rfl

/-- A client gets what is looked for among the files. -/
theorem answer_flat (nonempty : path ≠ [])
    (writable : ∀ name ∈ path, IsWritable name)
    (unshadowed : site.Unshadowed (flat path)) :
    site.answer (flat path) =
      some (flat path, serveStatic site.files site.root (flat path)) := by
  have stripped := strip_flat fun name member => (writable name member).ended
  rw [Site.answer, handleClient, decodeUtf8_encodeUtf8,
    TransportAgreement.clientSelector_append_crlf stripped
      (flat_ne_root nonempty), if_neg unshadowed.notBinary, unshadowed.static]

end Answers

section Links

variable {site : Site} {path : Path} {name : Component}

theorem splitLines_lines {lines : List Text}
    (unbroken : ∀ line ∈ lines, ∀ character ∈ line,
      isLineBreak character = false) :
    splitLines ((lines.map (· ++ crlf)).flatten ++ '.' :: crlf) =
      lines ++ [['.']] := by
  induction lines with
  | nil => rfl
  | cons line lines ih =>
      obtain ⟨first, others⟩ := List.forall_mem_cons.mp unbroken
      rw [List.map_cons, List.flatten_cons, List.append_assoc,
        List.append_assoc, splitLines_append_crlf first, ih others]
      rfl

/-- What a client reads of a menu is what its lines say. -/
theorem items_parse_lines {lines : List Text}
    (unbroken : ∀ line ∈ lines, ∀ character ∈ line,
      isLineBreak character = false)
    (notEnd : ∀ line ∈ lines, line ≠ ['.']) :
    (parse ((lines.map (· ++ crlf)).flatten ++ '.' :: crlf)).items =
      lines.filterMap parseLine := by
  have kept : lines.map rstripLineEnd = lines :=
    (List.map_congr_left fun line member =>
      rstripLineEnd_eq_self (unbroken line member)).trans (List.map_id _)
  have whole : ((lines ++ [['.']]).takeWhile fun line => line ≠ ['.']) =
      lines := by
    rw [List.takeWhile_append_of_pos fun line member =>
      decide_eq_true (notEnd line member)]
    simp
  rw [parse, splitLines_lines unbroken, List.map_append, kept]
  exact congrArg (List.filterMap parseLine) whole

theorem isInert_flat (writable : ∀ name ∈ path, IsWritable name) :
    IsInert (flat path) := by
  intro character member
  obtain ⟨name, inPath, inName⟩ := List.mem_flatMap.mp member
  rcases List.mem_cons.mp inName with rfl | inName
  · decide
  · exact (writable name inPath).inert character inName

/-- What a line of an entry is read as. -/
def Site.entryItem (site : Site) (dir : Path) (selector : Text)
    (name : Component) : GophermapItem :=
  if site.files.kindAt (dir ++ [name]) = some .directory then
    ⟨'1', "  ".toList ++ (name.name ++ ['/']), entrySelector selector name,
      site.hostname, site.port⟩
  else
    ⟨'0', "  ".toList ++ name.name, entrySelector selector name,
      site.hostname, site.port⟩

theorem Site.entryItem_selector (dir : Path) (selector : Text)
    (name : Component) :
    (site.entryItem dir selector name).selector = entrySelector selector name ∧
      (site.entryItem dir selector name).isInfo = false := by
  rw [Site.entryItem]
  split
  · exact ⟨rfl, rfl⟩
  · exact ⟨rfl, rfl⟩

theorem parseLine_entryLine {dir : Path} {selector : Text}
    (hostInert : IsInert site.hostname) (nameInert : IsInert name.name)
    (selectorInert : IsInert (entrySelector selector name)) :
    parseLine (site.entryLine dir selector name) =
      some (site.entryItem dir selector name) := by
  have blanks : IsInert "  ".toList := by decide
  rw [Site.entryLine, Site.entryItem]
  split
  · exact parseLine_link (by decide) site.port (isInert_append.mpr ⟨blanks,
      isInert_append.mpr ⟨nameInert, by decide⟩⟩) selectorInert hostInert
  · exact parseLine_link (by decide) site.port
      (isInert_append.mpr ⟨blanks, nameInert⟩) selectorInert hostInert

theorem unbroken_entryLine {dir : Path} {selector : Text}
    (hostInert : IsInert site.hostname) (nameInert : IsInert name.name)
    (selectorInert : IsInert (entrySelector selector name)) :
    ∀ character ∈ site.entryLine dir selector name,
      isLineBreak character = false := by
  have blanks : IsInert "  ".toList := by decide
  rw [Site.entryLine]
  split
  · exact unbroken_fields (by decide) (isInert_append.mpr ⟨blanks,
      isInert_append.mpr ⟨nameInert, by decide⟩⟩) selectorInert hostInert
      (isInert_intText _)
  · exact unbroken_fields (by decide) (isInert_append.mpr ⟨blanks, nameInert⟩)
      selectorInert hostInert (isInert_intText _)

theorem isInfo_of_infoLine {text : Text} {item : GophermapItem}
    (read : parseLine (Line.infoLine text).body = some item) :
    item.isInfo = true := by
  cases read
  rfl

/-- The lines of a listing that can be listed are read as they are meant. -/
structure Readable (site : Site) (dir : Path) (selector : Text) : Prop where
  host : IsInert site.hostname
  title : IsInert selector
  name : ∀ name ∈ (site.names dir).filter isShown, IsInert name.name
  entry : ∀ name ∈ (site.names dir).filter isShown,
    IsInert (entrySelector selector name)

/-- A line of a listing shows a text, an entry or the way back. -/
theorem mem_directoryLines {dir : Path} {selector line : Text} :
    line ∈ site.directoryLines dir selector ↔
      ((line = (Line.infoLine ("  Directory: ".toList ++ selector)).body ∨
        line = separator.body ∨ line = (Line.infoLine []).body) ∨
      ∃ name ∈ (site.names dir).filter isShown,
        site.entryLine dir selector name = line) ∨
      line = (Line.infoLine []).body ∨
      line = (backToRoot site.hostname site.port).body := by
  rw [Site.directoryLines, List.mem_append, List.mem_append, List.mem_map]
  simp only [List.mem_cons, List.not_mem_nil, or_false]

theorem items_autoDirectory {dir : Path} {selector : Text}
    (readable : Readable site dir selector) :
    (parse (site.autoDirectory dir selector)).items =
      (site.directoryLines dir selector).filterMap parseLine := by
  have label : IsInert "  Directory: ".toList := by decide
  refine items_parse_lines ?_ ?_
  · intro line member
    rcases mem_directoryLines.mp member with
      ((rfl | rfl | rfl) | ⟨name, isName, rfl⟩) | rfl | rfl
    · exact unbroken_body (isInert_append.mpr ⟨label, readable.title⟩)
    · exact unbroken_body isInert_separator
    · exact @unbroken_body (.infoLine []) (by rintro _ ⟨⟩)
    · exact unbroken_entryLine readable.host (readable.name name isName)
        (readable.entry name isName)
    · exact @unbroken_body (.infoLine []) (by rintro _ ⟨⟩)
    · exact unbroken_body (isInert_backToRoot.mpr readable.host)
  · intro line member
    rcases mem_directoryLines.mp member with
      ((rfl | rfl | rfl) | ⟨name, isName, rfl⟩) | rfl | rfl
    · exact body_ne_dot _
    · exact body_ne_dot _
    · exact body_ne_dot _
    · rw [Site.entryLine]
      split
      · exact body_ne_dot _
      · rintro ⟨⟩
    · exact body_ne_dot _
    · exact body_ne_dot _

theorem parseLine_backToRoot (hostInert : IsInert site.hostname) :
    parseLine (backToRoot site.hostname site.port).body =
      some ⟨'1', "  ← Back to Root".toList, ['/'], site.hostname,
        site.port⟩ :=
  parseLine_link (by decide) site.port (by decide) (by decide) hostInert

/-- The links of a listing lead to its entries and to the root. -/
theorem mem_menuItems_autoDirectory {dir : Path} {selector second : Text}
    (readable : Readable site dir selector) :
    (∃ item ∈ (parse (site.autoDirectory dir selector)).menuItems,
        item.selector = second) ↔
      (∃ name ∈ (site.names dir).filter isShown,
        second = entrySelector selector name) ∨ second = ['/'] := by
  have items : ∀ item,
      item ∈ (parse (site.autoDirectory dir selector)).menuItems ↔
        (∃ line ∈ site.directoryLines dir selector,
          parseLine line = some item) ∧ item.isInfo = false := by
    intro item
    rw [← List.mem_filterMap, ← items_autoDirectory readable]
    refine List.mem_filter.trans (and_congr Iff.rfl ?_)
    rw [decide_eq_true_eq, Bool.not_eq_true]
  constructor
  · rintro ⟨item, member, rfl⟩
    obtain ⟨⟨line, inMenu, read⟩, link⟩ := (items item).mp member
    rcases mem_directoryLines.mp inMenu with
      ((rfl | rfl | rfl) | ⟨name, isName, rfl⟩) | rfl | rfl
    · exact absurd (isInfo_of_infoLine read) (by simp [link])
    · exact absurd (isInfo_of_infoLine read) (by simp [link])
    · exact absurd (isInfo_of_infoLine read) (by simp [link])
    · rw [parseLine_entryLine readable.host (readable.name name isName)
        (readable.entry name isName)] at read
      cases read
      exact .inl ⟨name, isName, (Site.entryItem_selector dir selector name).1⟩
    · exact absurd (isInfo_of_infoLine read) (by simp [link])
    · rw [parseLine_backToRoot readable.host] at read
      cases read
      exact .inr rfl
  · rintro (⟨name, isName, rfl⟩ | rfl)
    · refine ⟨site.entryItem dir selector name, (items _).mpr ⟨⟨_,
        mem_directoryLines.mpr (.inl (.inr ⟨name, isName, rfl⟩)), ?_⟩, ?_⟩, ?_⟩
      · exact parseLine_entryLine readable.host (readable.name name isName)
          (readable.entry name isName)
      · exact (Site.entryItem_selector dir selector name).2
      · exact (Site.entryItem_selector dir selector name).1
    · exact ⟨_, (items _).mpr ⟨⟨_, mem_directoryLines.mpr (.inr (.inr rfl)),
        parseLine_backToRoot readable.host⟩, rfl⟩, rfl⟩

end Links

section Browsing

variable {site : Site} {start path : Path}

/-- What is assumed of everything that the listings show. -/
structure Settled (site : Site) (start : Path) : Prop where
  linkFree : LinkFree site.files site.root
  host : IsInert site.hostname
  nonempty : start ≠ []
  writable : ∀ path, site.Shown start path → ∀ name ∈ path, IsWritable name
  startPlain : ∀ name ∈ start, ¬ HasDots name
  unshadowed : ∀ path, site.Shown start path → site.Unshadowed (flat path)
  kept : ∀ path, site.Shown start path →
    ∃ kind ∈ site.files.kindAt (site.place path), kind ≠ .other

theorem Settled.path_nonempty (settled : Settled site start)
    (shown : site.Shown start path) : path ≠ [] := by
  cases shown with
  | start => exact settled.nonempty
  | entry => exact List.append_ne_nil_of_right_ne_nil _ (by simp)

theorem Settled.entry_shown (_ : Settled site start)
    (shown : site.Shown start path) (listed : site.IsListed path)
    {name : Component}
    (member : name ∈ (site.names (site.place path)).filter isShown) :
    site.Shown start (path ++ [name]) := by
  obtain ⟨inDirectory, isShown⟩ := List.mem_filter.mp member
  exact .entry shown listed inDirectory isShown

theorem Settled.readable (settled : Settled site start)
    (shown : site.Shown start path) (listed : site.IsListed path) :
    Readable site (site.place path) (flat path) where
  host := settled.host
  title := isInert_flat (settled.writable path shown)
  name name member :=
    (settled.writable _ (settled.entry_shown shown listed member) name
      (by simp)).inert
  entry name member := by
    rw [entrySelector_flat (settled.path_nonempty shown)]
    exact isInert_flat
      (settled.writable _ (settled.entry_shown shown listed member))

/-- A listing is served exactly of the directories without a menu. -/
theorem serveAt_eq_listing_iff {dir : Path} :
    site.serveAt path = .listing dir ↔
      site.IsListed path ∧ dir = site.place path := by
  rw [Site.serveAt, Site.IsListed]
  split
  next none => simp [none]
  next file =>
    rw [file, serveFile]
    split <;> simp
  next directory =>
    rw [directory, serveDirectory]
    split
    next menu => simp [Option.ne_none_iff_isSome.mpr menu]
    next noMenu =>
      rw [Option.not_isSome_iff_eq_none.mp noMenu, Served.listing.injEq]
      simp [eq_comm]
  next other => simp [other]

/-- The links of a listing lead to what it shows, and no others lead on. -/
theorem follows_flat_iff (settled : Settled site start)
    (shown : site.Shown start path) (noDots : ∀ name ∈ path, ¬ HasDots name)
    {second : Text} :
    site.Follows (flat path) second ↔ site.IsListed path ∧
      ∃ name ∈ (site.names (site.place path)).filter isShown,
        second = flat (path ++ [name]) := by
  have nonempty := settled.path_nonempty shown
  have writable := settled.writable path shown
  have answered := answer_flat nonempty writable
    (settled.unshadowed path shown)
  rw [serveStatic_flat settled.linkFree nonempty writable noDots] at answered
  rw [Site.Follows, Site.links, answered]
  by_cases listed : site.IsListed path
  · rw [serveAt_eq_listing_iff.mpr ⟨listed, rfl⟩]
    dsimp only
    rw [List.mem_filter, List.mem_map,
      mem_menuItems_autoDirectory (settled.readable shown listed)]
    simp only [entrySelector_flat nonempty, decide_eq_true_eq]
    constructor
    · rintro ⟨⟨name, member, rfl⟩ | rfl, notRoot⟩
      · exact ⟨listed, name, member, rfl⟩
      · exact absurd rfl notRoot
    · rintro ⟨-, name, member, rfl⟩
      exact ⟨.inl ⟨name, member, rfl⟩, flat_ne_root (by simp)⟩
  · cases served : site.serveAt path with
    | listing dir => exact absurd (serveAt_eq_listing_iff.mp served).1 listed
    | error | file | menu => simp [listed]

/-- Everything that is shown has a plain name. -/
def PlainNames (site : Site) (start : Path) : Prop :=
  ∀ path, site.Shown start path → ∀ name ∈ path, ¬ HasDots name

theorem browses_of_plainNames (settled : Settled site start)
    (plain : PlainNames site start) : Browses site start where
  reached selector := by
    constructor
    · intro steps
      induction steps with
      | refl => exact ⟨start, .start, rfl⟩
      | tail _ follows ih =>
          obtain ⟨path, shown, rfl⟩ := ih
          obtain ⟨listed, name, member, rfl⟩ :=
            (follows_flat_iff settled shown (plain path shown)).mp follows
          exact ⟨_, settled.entry_shown shown listed member, rfl⟩
    · rintro ⟨path, shown, rfl⟩
      induction shown with
      | start => exact .refl
      | entry onTheWay listed member isShown ih =>
          exact ih.tail ((follows_flat_iff settled onTheWay
            (plain _ onTheWay)).mpr ⟨listed, _, List.mem_filter.mpr
              ⟨member, isShown⟩, rfl⟩)
  served path shown := by
    have nonempty := settled.path_nonempty shown
    have writable := settled.writable path shown
    rw [answer_flat nonempty writable (settled.unshadowed path shown),
      serveStatic_flat settled.linkFree nonempty writable (plain path shown)]

end Browsing

section Dots

variable {site : Site} {start path read : Path}

theorem Site.Shown.start_prefix (shown : site.Shown start path) :
    start <+: path := by
  induction shown with
  | start => exact List.prefix_refl _
  | entry _ _ _ _ ih => exact ih.trans (List.prefix_append _ _)

theorem read_serveDirectory {files : FileSystem}
    (reads : read ∈ (serveDirectory files path).read) :
    ∃ more, read = path ++ more ∧ ∀ name ∈ more, name = gophermap := by
  rw [serveDirectory] at reads
  split at reads
  · cases reads
    exact ⟨[gophermap], rfl, by simp⟩
  · cases reads
    exact ⟨[], (List.append_nil _).symm, by simp⟩

/-- What is read of a selector is what it names, or the menu in it. -/
theorem read_serveStatic {files : FileSystem} {root : Path} {selector : Text}
    (reads : read ∈ (serveStatic files root selector).read) :
    ∃ more, read = target files root selector ++ more ∧
      ∀ name ∈ more, name = gophermap := by
  rw [serveStatic] at reads
  split at reads
  · cases reads
  · split at reads
    · cases reads
    · rw [read_serveFile] at reads
      cases reads
      exact ⟨[], (List.append_nil _).symm, by simp⟩
    · exact read_serveDirectory reads
    · cases reads

theorem exists_read_serveAt {kind : Kind}
    (found : kind ∈ site.files.kindAt (site.place path))
    (kept : kind ≠ .other) :
    ∃ more, (site.serveAt path).read = some (site.place path ++ more) := by
  rw [Site.serveAt, Option.mem_def.mp found]
  cases kind with
  | file => exact ⟨[], by rw [List.append_nil]; exact read_serveFile _⟩
  | directory => exact exists_read_serveDirectory _
  | other => exact absurd rfl kept

/-- An entry whose name has two dots in a row is not served by its link. -/
theorem plainNames_of_browses (settled : Settled site start)
    (browses : Browses site start) : PlainNames site start := by
  intro path shown name member dots
  have nonempty := settled.path_nonempty shown
  have answered := answer_flat nonempty (settled.writable path shown)
    (settled.unshadowed path shown)
  have same : serveStatic site.files site.root (flat path) =
      site.serveAt path :=
    (Prod.mk.inj (Option.some.inj
      (answered.symm.trans (browses.served path shown)))).2
  obtain ⟨kind, found, kept⟩ := settled.kept path shown
  obtain ⟨more, reads⟩ := exists_read_serveAt found kept
  obtain ⟨others, split, menus⟩ := read_serveStatic (same ▸ reads)
  -- The path starts with a name without dots, so its selector stays relative.
  obtain ⟨first, rest, rfl⟩ := List.exists_cons_of_ne_nil settled.nonempty
  obtain ⟨below, rfl⟩ := shown.start_prefix
  rw [List.cons_append] at split member
  rw [target_of_relative settled.linkFree
    (clean_relative (settled.startPlain first (.head _))), Site.place,
    List.append_assoc, List.append_assoc, List.append_cancel_left_eq] at split
  have inRead : name ∈ components (clean (flat (first :: (rest ++ below)))) ++
      others := split ▸ List.mem_append_left _ member
  rcases List.mem_append.mp inRead with named | menu
  · exact not_infix_removeAll _ (dots.trans (infix_of_mem_components named))
  · have single : ¬ ['.', '.'] <:+: gophermap.name := by decide
    exact single (menus name menu ▸ dots)

end Dots

section Archive

def archive : Component := ⟨"archive".toList, by decide, by decide⟩

def notes : Component := ⟨"notes.txt".toList, by decide, by decide⟩

/-- A directory with one file, of which the names are listed. -/
def archiveSite : Site where
  files :=
    { resolve := id
      kindAt := fun path =>
        if path = servedRoot ++ [archive] then some .directory
        else if path = servedRoot ++ [archive, notes] then some .file
        else none }
  root := servedRoot
  server := ⟨false, true, fun _ => false⟩
  hostname := "localhost".toList
  port := 7070
  names path := if path = servedRoot ++ [archive] then [notes] else []

theorem shown_archive {path : Path} (shown : archiveSite.Shown [archive] path) :
    path = [archive] ∨ path = [archive, notes] := by
  induction shown with
  | start => exact .inl rfl
  | entry onTheWay listed member shown ih =>
      rcases ih with rfl | rfl
      · have names : archiveSite.names (archiveSite.place [archive]) =
            [notes] := by decide
        rw [names, List.mem_singleton] at member
        exact .inr (member ▸ rfl)
      · exact absurd listed.1 (by decide)

theorem isWritable_archive : ∀ name ∈ [archive, notes], IsWritable name := by
  simp only [List.forall_mem_cons, List.not_mem_nil, false_implies,
    implies_true, and_true]
  have lastArchive : archive.name.getLast? = some 'e' := by decide
  have lastNotes : notes.name.getLast? = some 't' := by decide
  refine ⟨⟨by decide, by decide, ?_⟩, ⟨by decide, by decide, ?_⟩⟩
  · rw [lastArchive]
    rintro _ ⟨⟩
    decide
  · rw [lastNotes]
    rintro _ ⟨⟩
    decide

theorem settled_archive : Settled archiveSite [archive] where
  linkFree _ _ := rfl
  host := by decide
  nonempty := by simp
  writable path shown name member := by
    refine isWritable_archive name ?_
    rcases shown_archive shown with rfl | rfl
    · simp_all
    · exact member
  startPlain name member := by
    rw [List.mem_singleton.mp member]
    exact (by decide : ¬ ['.', '.'] <:+: archive.name)
  unshadowed path shown := by
    rcases shown_archive shown with rfl | rfl
    · exact ⟨by decide +kernel, by decide +kernel⟩
    · exact ⟨by decide +kernel, by decide +kernel⟩
  kept path shown := by
    rcases shown_archive shown with rfl | rfl
    · exact ⟨.directory, by decide, by decide⟩
    · exact ⟨.file, by decide, by decide⟩

end Archive

end DirectoryBrowsing

end RefinetPillars
