import RefinetPillars.DecimalText
import RefinetPillars.GopherholeRegistry

/-!
# Menus from stored records

A menu is a text of lines whose fields are separated by tabs.  A Pillar builds
menus from what peers have registered, announced and requested, and a reader
takes them apart again.
-/

namespace RefinetPillars

namespace GopherMenus

open HexText LineText DecimalText
open GopherholeRegistry (Row)

def tab : Char := Char.ofNat 9

section Reader

structure GophermapItem where
  itemType : Char
  display : Text
  selector : Text
  host : Text
  port : Int
deriving DecidableEq

def gopherTypes : List (Char × String) :=
  [('0', "text"), ('1', "menu"), ('2', "cso"), ('3', "error"), ('4', "binhex"),
    ('5', "dos_binary"), ('6', "uuencode"), ('7', "search"), ('8', "telnet"),
    ('9', "binary"), ('+', "mirror"), ('g', "gif"), ('I', "image"),
    ('T', "tn3270"), ('h', "html"), ('i', "info"), ('s', "sound")]

def GophermapItem.typeName (item : GophermapItem) : String :=
  (gopherTypes.lookup item.itemType).getD "unknown"

def GophermapItem.isInfo (item : GophermapItem) : Bool := item.itemType = 'i'

structure ParsedGophermap where
  items : List GophermapItem
  infoLines : List Text
  menuItems : List GophermapItem

/-- `line.rstrip("\r\n")`. -/
def rstripLineEnd (line : Text) : Text :=
  line.rdropWhile fun character => character.toNat ∈ [10, 13]

/-- A port that is no number is the usual one. -/
def readPort (text : Text) : Int :=
  if strip text = [] then 70 else (int text).getD 70

/-- Lines of too few fields are skipped. -/
def parseLine : Text → Option GophermapItem
  | [] => none
  | itemType :: rest =>
      let parts := rest.splitOn tab
      if itemType = 'i' then some ⟨'i', parts.headD [], [], [], 0⟩
      else
        match parts with
        | display :: selector :: host :: port :: _ =>
            some ⟨itemType, display, selector, host, readPort port⟩
        | _ => none

/-- `parse`, which stops at a line with a dot. -/
def parse (rawText : Text) : ParsedGophermap :=
  let lines := (splitLines rawText).map rstripLineEnd
  let items := (lines.takeWhile fun line => line ≠ ['.']).filterMap parseLine
  { items := items
    infoLines := (items.filter GophermapItem.isInfo).map GophermapItem.display
    menuItems := items.filter fun item => ¬ item.isInfo }

end Reader

section Lines

/-- What the database holds in a column of integers. -/
inductive Column where
  | null
  | integer (value : Int)
  | real (printed : Text)
  | text (value : Text)

/-- How a value is printed into a line. -/
def Column.shown : Column → Text
  | .null => "None".toList
  | .integer value => intText value
  | .real printed => printed
  | .text value => value

def shown (value : Option Text) : Text := value.getD "None".toList

/-- A line of a menu before it is printed, by the function that prints it. -/
inductive Line where
  | infoLine (text : Text)
  | menuLink (display selector host : Text) (port : Column)
  | searchLink (display selector host : Text) (port : Column)

open Line

def separator : Line := infoLine (List.replicate 60 '─')

/-- A line without its end. -/
def Line.body : Line → Text
  | infoLine text =>
      'i' :: [tab].intercalate [text, "fake".toList, "(NULL)".toList, ['0']]
  | menuLink display selector host port =>
      '1' :: [tab].intercalate [display, selector, host, port.shown]
  | searchLink display selector host port =>
      '7' :: [tab].intercalate [display, selector, host, port.shown]

/-- The lines of a menu and its end. -/
def printed (lines : List Line) : Text :=
  (lines.map fun line => line.body ++ crlf).flatten ++ ('.' :: crlf)

def Column.number : Column → Option Int
  | .integer value => some value
  | .null | .real _ | .text _ => none

/-- What a line is meant to be read as; there is no item without a port. -/
def Line.item : Line → Option GophermapItem
  | infoLine text => some ⟨'i', text, [], [], 0⟩
  | menuLink display selector host port =>
      port.number.map (⟨'1', display, selector, host, ·⟩)
  | searchLink display selector host port =>
      port.number.map (⟨'7', display, selector, host, ·⟩)

end Lines

section Menus

open Line

variable (hostname : Text) (port : Int)

def backToRoot : Line :=
  menuLink "  ← Back to Root".toList "/".toList hostname (.integer port)

/-- An empty description has no line. -/
def descriptionLines (description : Text) : List Line :=
  if description = [] then []
  else [infoLine ("    ".toList ++ description)]

def holeLines (hole : Row) : List Line :=
  [menuLink ("  ".toList ++ hole.name ++ " [".toList ++ hole.pid.take 8 ++
    "...]".toList) hole.selector hostname (.integer port)] ++
  descriptionLines (hole.description.getD []) ++
  [infoLine ("    Registered: ".toList ++ hole.registeredAt ++
      " | Source: ".toList ++ shown hole.source),
    infoLine []]

def directoryLines (holes : List Row) : List Line :=
  [infoLine [], infoLine "  REFINET GOPHERHOLE DIRECTORY".toList, separator,
    infoLine [],
    infoLine ("  ".toList ++ numeral holes.length ++
      " registered gopherhole(s) on this mesh".toList),
    infoLine []] ++
  holes.flatMap (holeLines hostname port) ++
  [separator, backToRoot hostname port, infoLine []]

def buildDirectoryMenu (holes : List Row) : Text :=
  printed (directoryLines hostname port holes)

/-- A row of the table `peers`; a latency is given as it is printed. -/
structure Peer where
  pid : Text
  hostname : Option Text
  port : Column
  pillarName : Option Text
  status : Text
  latencyMs : Option Text
  onionAddress : Option Text

/-- A peer without an address in the Tor network has no link there. -/
def onionLines (onionAddress : Text) : List Line :=
  if onionAddress = [] then []
  else [menuLink ("    .onion: ".toList ++ onionAddress.take 20 ++
    "...  (Tor)".toList) "/".toList onionAddress (.integer 7070)]

def shownLatency : Option Text → Text
  | some latency => latency ++ "ms".toList
  | none => "—".toList

def peerLines (peer : Peer) : List Line :=
  [menuLink ("  ".toList ++ shown peer.pillarName ++ " @ ".toList ++
    shown peer.hostname ++ ":".toList ++ peer.port.shown) "/".toList
    (shown peer.hostname) peer.port] ++
  onionLines (peer.onionAddress.getD []) ++
  [infoLine ("    Status: ".toList ++ peer.status ++ " | Latency: ".toList ++
      shownLatency peer.latencyMs ++ " | PID: ".toList ++ peer.pid.take 16 ++
      "... | Tor: ".toList ++
      (if peer.onionAddress.getD [] = [] then "no".toList else "yes".toList)),
    infoLine []]

def peersLines (peers : List Peer) : List Line :=
  [infoLine [], infoLine "  REFINET KNOWN PEERS".toList, separator,
    infoLine []] ++
  (if peers = [] then
    [infoLine "  No peers discovered yet.".toList,
      infoLine "  Other Pillars on your network will appear here.".toList]
  else peers.flatMap peerLines) ++
  [separator, backToRoot hostname port, infoLine []]

def buildPeersDocument (peers : List Peer) : Text :=
  printed (peersLines hostname port peers)

end Menus

section Search

open Line

/-- `LIKE`, for which the case of ASCII letters does not matter. -/
def like : Text → Text → Bool
  | [], text => text = []
  | '%' :: pattern, text => text.tails.any (like pattern)
  | '_' :: pattern, text =>
      match text with
      | [] => false
      | _ :: rest => like pattern rest
  | character :: pattern, text =>
      match text with
      | [] => false
      | first :: rest => character.toLower = first.toLower && like pattern rest

structure SearchResult where
  selector : Text
  name : Text
  source : String

/-- The selectors that have been served and the gopherholes, both in the order
of the database, newest first. -/
structure ContentIndex where
  selectors : List Text
  holes : List Row

def searchLimit : Nat := 20

def searchContent (query : Text) (index : ContentIndex) : List SearchResult :=
  let pattern := '%' :: (query ++ ['%'])
  ((index.selectors.filter (like pattern)).take searchLimit).map
      (fun selector => ⟨selector, selector, "content_index"⟩) ++
    ((index.holes.filter fun hole => like pattern hole.name ||
        hole.description.any (like pattern)).take searchLimit).map
      fun hole => ⟨hole.selector, hole.name, "gopherholes"⟩

/-- What follows the first tab, or else the first question mark. -/
def searchQuery (selector : Text) : Text :=
  let query := (selector.dropWhile fun character => character ≠ tab).tail
  if query = [] then
    (selector.dropWhile fun character => character ≠ '?').tail
  else query

variable (hostname : Text) (port : Int)

def resultLines (query : Text) (results : List SearchResult) : List Line :=
  [infoLine [],
    infoLine ("  SEARCH RESULTS: \"".toList ++ query ++ "\"".toList), separator,
    infoLine []] ++
  (if results = [] then [infoLine "  No results found.".toList]
  else
    [infoLine ("  ".toList ++ numeral results.length ++
      " result(s) found".toList), infoLine []] ++
    results.map fun result => menuLink ("  ".toList ++ result.name)
      result.selector hostname (.integer port)) ++
  [infoLine [],
    searchLink "  Search again".toList "/search".toList hostname
      (.integer port),
    backToRoot hostname port]

/-- The lines of the answer to `/search`. -/
def searchLines (selector : Text) (index : ContentIndex) : List Line :=
  if searchQuery selector = [] then
    [infoLine [], infoLine "  REFINET SEARCH".toList, separator, infoLine [],
      searchLink "  Search REFInet".toList "/search".toList hostname
        (.integer port),
      infoLine [], backToRoot hostname port]
  else
    resultLines hostname port (strip (searchQuery selector))
      (searchContent (strip (searchQuery selector)) index)

def searchMenu (selector : Text) (index : ContentIndex) : Text :=
  printed (searchLines hostname port selector index)

end Search

section Specification

open Line

variable (hostname : Text) (port : Int)

/-- The menus that are built from records. -/
inductive Menu where
  | directory (holes : List Row)
  | peers (peers : List Peer)
  | search (selector : Text) (index : ContentIndex)

def Menu.lines : Menu → List Line
  | .directory holes => directoryLines hostname port holes
  | .peers known => peersLines hostname port known
  | .search selector index => searchLines hostname port selector index

def Menu.text : Menu → Text
  | .directory holes => buildDirectoryMenu hostname port holes
  | .peers known => buildPeersDocument hostname port known
  | .search selector index => searchMenu hostname port selector index

/-- One item for every line. -/
def Menu.intended (menu : Menu) : Option (List GophermapItem) :=
  (menu.lines hostname port).mapM Line.item

/-- A text that neither ends a field nor a line. -/
def IsInert (text : Text) : Prop :=
  ∀ character ∈ text, character ≠ tab ∧ isLineBreak character = false

instance (text : Text) : Decidable (IsInert text) :=
  List.decidableBAll _ text

def Line.IsInert : Line → Prop
  | infoLine text => GopherMenus.IsInert text
  | menuLink display selector host port
  | searchLink display selector host port =>
      GopherMenus.IsInert display ∧ GopherMenus.IsInert selector ∧
        GopherMenus.IsInert host ∧ ∃ number, port = .integer number

structure IsInertHole (hole : Row) : Prop where
  name : IsInert hole.name
  pid : IsInert (hole.pid.take 8)
  selector : IsInert hole.selector
  description : IsInert (hole.description.getD [])
  registeredAt : IsInert hole.registeredAt
  source : IsInert (shown hole.source)

structure IsInertPeer (peer : Peer) : Prop where
  pillarName : IsInert (shown peer.pillarName)
  hostname : IsInert (shown peer.hostname)
  port : ∃ number, peer.port = .integer number
  onionAddress : IsInert (peer.onionAddress.getD [])
  status : IsInert peer.status
  latencyMs : IsInert (peer.latencyMs.getD [])
  pid : IsInert (peer.pid.take 16)

structure IsInertResult (result : SearchResult) : Prop where
  name : IsInert result.name
  selector : IsInert result.selector

def Menu.IsInert : Menu → Prop
  | .directory holes => ∀ hole ∈ holes, IsInertHole hole
  | .peers known => ∀ peer ∈ known, IsInertPeer peer
  | .search selector index =>
      searchQuery selector ≠ [] →
        GopherMenus.IsInert (strip (searchQuery selector)) ∧
        ∀ result ∈ searchContent (strip (searchQuery selector)) index,
          IsInertResult result

/-- Where a link leads. -/
def Line.target : Line → Option (Text × Text × Column)
  | infoLine _ => none
  | menuLink _ selector host port
  | searchLink _ selector host port => some (selector, host, port)

/-- Where the links of a menu are meant to lead, in their order. -/
def Menu.targets : Menu → List (Text × Text × Column)
  | .directory holes =>
      holes.map (fun hole => (hole.selector, hostname, .integer port)) ++
        [("/".toList, hostname, .integer port)]
  | .peers known =>
      known.flatMap (fun peer =>
        ("/".toList, shown peer.hostname, peer.port) ::
          if peer.onionAddress.getD [] = [] then []
          else [("/".toList, peer.onionAddress.getD [], .integer 7070)]) ++
        [("/".toList, hostname, .integer port)]
  | .search selector index =>
      (if searchQuery selector = [] then []
        else (searchContent (strip (searchQuery selector)) index).map
          fun result => (result.selector, hostname, .integer port)) ++
        [("/search".toList, hostname, .integer port),
          ("/".toList, hostname, .integer port)]

end Specification

section Reading

theorem isInert_append {first second : Text} :
    IsInert (first ++ second) ↔ IsInert first ∧ IsInert second :=
  List.forall_mem_append

theorem IsInert.tab_notMem {text : Text} (inert : IsInert text) :
    tab ∉ text := fun member => (inert tab member).1 rfl

theorem IsInert.unbroken {text : Text} (inert : IsInert text) :
    ∀ character ∈ text, isLineBreak character = false :=
  fun character member => (inert character member).2

theorem mem_intText {number : Int} {character : Char}
    (member : character ∈ intText number) :
    character = '-' ∨ ∃ digit < 10, character = digit.digitChar := by
  cases number with
  | ofNat number => exact .inr (exists_digit_of_mem_numeral member)
  | negSucc number =>
      rcases List.mem_cons.mp member with minus | later
      · exact .inl minus
      · exact .inr (exists_digit_of_mem_numeral later)

/-- A number has no character with a meaning in a menu, and no blanks. -/
theorem plain_intText {number : Int} {character : Char}
    (member : character ∈ intText number) :
    (character ≠ tab ∧ isLineBreak character = false) ∧
      isSpace character = false := by
  have plain : ∀ digit : Fin 10, ((digit : Nat).digitChar ≠ tab ∧
      isLineBreak (digit : Nat).digitChar = false) ∧
        isSpace (digit : Nat).digitChar = false := by
    decide
  rcases mem_intText member with rfl | ⟨digit, small, rfl⟩
  · decide
  · exact plain ⟨digit, small⟩

theorem isInert_intText (number : Int) : IsInert (intText number) :=
  fun _ member => (plain_intText member).1

theorem readPort_intText (number : Int) : readPort (intText number) = number := by
  have nonempty : intText number ≠ [] := by
    intro empty
    have read := int_intText number
    rw [empty] at read
    cases read
  have kept : strip (intText number) = intText number := by
    apply strip_eq_self
    · intro first atHead
      exact (plain_intText (List.mem_of_mem_head? atHead)).2
    · intro last atEnd
      exact (plain_intText (List.mem_of_mem_getLast? atEnd)).2
  rw [readPort, kept, if_neg nonempty, int_intText]
  rfl

theorem splitOn_fields {first second third fourth : Text}
    (firstFree : tab ∉ first) (secondFree : tab ∉ second)
    (thirdFree : tab ∉ third) (fourthFree : tab ∉ fourth) :
    ([tab].intercalate [first, second, third, fourth]).splitOn tab =
      [first, second, third, fourth] := by
  refine List.splitOn_intercalate tab ?_ (List.cons_ne_nil _ _)
  simp only [List.forall_mem_cons, List.not_mem_nil, false_implies,
    implies_true, and_true]
  exact ⟨firstFree, secondFree, thirdFree, fourthFree⟩

theorem parseLine_link {kind : Char} (notInfo : kind ≠ 'i')
    {display selector host : Text} (number : Int)
    (displayInert : IsInert display) (selectorInert : IsInert selector)
    (hostInert : IsInert host) :
    parseLine (kind :: [tab].intercalate
        [display, selector, host, intText number]) =
      some ⟨kind, display, selector, host, number⟩ := by
  have fields := splitOn_fields displayInert.tab_notMem
    selectorInert.tab_notMem hostInert.tab_notMem
    (isInert_intText number).tab_notMem
  rw [parseLine, fields]
  dsimp only
  rw [if_neg notInfo, readPort_intText]

/-- What cannot be misread is read as it is meant. -/
theorem exists_item {line : Line} (inert : line.IsInert) :
    ∃ item, line.item = some item ∧ parseLine line.body = some item := by
  cases line with
  | infoLine text =>
      have fields := @splitOn_fields text "fake".toList "(NULL)".toList ['0']
        (IsInert.tab_notMem inert) (by decide) (by decide) (by decide)
      refine ⟨_, rfl, ?_⟩
      rw [Line.body, parseLine, fields]
      rfl
  | menuLink display selector host port =>
      obtain ⟨displayInert, selectorInert, hostInert, number, rfl⟩ := inert
      exact ⟨_, rfl, parseLine_link (by decide) number displayInert
        selectorInert hostInert⟩
  | searchLink display selector host port =>
      obtain ⟨displayInert, selectorInert, hostInert, number, rfl⟩ := inert
      exact ⟨_, rfl, parseLine_link (by decide) number displayInert
        selectorInert hostInert⟩

theorem unbroken_fields {kind : Char} (plain : isLineBreak kind = false)
    {display selector host port : Text} (displayInert : IsInert display)
    (selectorInert : IsInert selector) (hostInert : IsInert host)
    (portInert : IsInert port) :
    ∀ character ∈ kind :: [tab].intercalate [display, selector, host, port],
      isLineBreak character = false := by
  have tabPlain : isLineBreak tab = false := by decide
  simp only [List.intercalate, List.intersperse, List.flatten_cons,
    List.flatten_nil, List.append_nil, List.forall_mem_cons,
    List.forall_mem_append, List.not_mem_nil, false_implies, implies_true,
    and_true]
  exact ⟨plain, displayInert.unbroken, tabPlain, selectorInert.unbroken,
    tabPlain, hostInert.unbroken, tabPlain, portInert.unbroken⟩

theorem unbroken_body {line : Line} (inert : line.IsInert) :
    ∀ character ∈ line.body, isLineBreak character = false := by
  cases line with
  | infoLine text =>
      exact unbroken_fields (by decide) inert (by decide) (by decide)
        (by decide)
  | menuLink display selector host port
  | searchLink display selector host port =>
      obtain ⟨displayInert, selectorInert, hostInert, number, rfl⟩ := inert
      exact unbroken_fields (by decide) displayInert selectorInert hostInert
        (isInert_intText number)

theorem splitLines_printed {lines : List Line}
    (inert : ∀ line ∈ lines, line.IsInert) :
    splitLines (printed lines) = lines.map Line.body ++ [['.']] := by
  induction lines with
  | nil => rfl
  | cons line lines ih =>
      obtain ⟨first, others⟩ := List.forall_mem_cons.mp inert
      rw [printed, List.map_cons, List.flatten_cons, List.append_assoc,
        List.append_assoc, splitLines_append_crlf (unbroken_body first),
        ← printed, ih others]
      rfl

theorem rstripLineEnd_eq_self {line : Text}
    (unbroken : ∀ character ∈ line, isLineBreak character = false) :
    rstripLineEnd line = line := by
  rw [rstripLineEnd, List.rdropWhile_eq_self_iff]
  intro nonempty
  have kept := unbroken _ (List.getLast_mem nonempty)
  intro dropped
  simp only [decide_eq_true_eq, List.mem_cons, List.not_mem_nil,
    or_false] at dropped
  rcases dropped with feed | carriage
  · simp [isLineBreak, feed] at kept
  · simp [isLineBreak, carriage] at kept

theorem body_ne_dot (line : Line) : line.body ≠ ['.'] := by
  cases line <;> rintro ⟨⟩

theorem items_parse_printed {lines : List Line}
    (inert : ∀ line ∈ lines, line.IsInert) :
    (parse (printed lines)).items =
      (lines.map Line.body).filterMap parseLine := by
  have kept : (lines.map Line.body).map rstripLineEnd =
      lines.map Line.body := by
    rw [List.map_map]
    exact List.map_congr_left fun line member =>
      rstripLineEnd_eq_self (unbroken_body (inert line member))
  have whole : ((lines.map Line.body ++ [['.']]).takeWhile fun line =>
      line ≠ ['.']) = lines.map Line.body := by
    rw [List.takeWhile_append_of_pos]
    · simp
    · intro body member
      obtain ⟨line, -, rfl⟩ := List.mem_map.mp member
      exact decide_eq_true (body_ne_dot line)
  rw [parse, splitLines_printed inert, List.map_append, kept]
  exact congrArg (List.filterMap parseLine) whole

theorem mapM_item {lines : List Line}
    (inert : ∀ line ∈ lines, line.IsInert) :
    lines.mapM Line.item =
      some ((lines.map Line.body).filterMap parseLine) := by
  induction lines with
  | nil => rfl
  | cons line lines ih =>
      obtain ⟨first, others⟩ := List.forall_mem_cons.mp inert
      obtain ⟨item, isItem, read⟩ := exists_item first
      rw [List.mapM_cons, isItem, ih others, List.map_cons,
        List.filterMap_cons, read]
      rfl

end Reading

section Forging

/-- The fields of a text are made of its characters, without the separator. -/
theorem mem_of_mem_splitOn {text part : Text} (member : part ∈ text.splitOn tab) :
    ∀ character ∈ part, character ∈ text ∧ character ≠ tab := by
  induction text generalizing part with
  | nil =>
      rw [List.splitOn_nil, List.mem_singleton] at member
      rw [member]
      exact List.forall_mem_nil _
  | cons first text ih =>
      have older : ∀ {part : Text}, part ∈ text.splitOn tab →
          ∀ character ∈ part, character ∈ first :: text ∧ character ≠ tab := by
        intro part member character inPart
        obtain ⟨inText, noTab⟩ := ih member character inPart
        exact ⟨List.mem_cons_of_mem first inText, noTab⟩
      rw [List.splitOn_cons_eq_if_modifyHead] at member
      split at member
      next =>
        rcases List.mem_cons.mp member with rfl | later
        · exact List.forall_mem_nil _
        · exact older later
      next other =>
        cases parts : text.splitOn tab with
        | nil => exact (List.splitOn_ne_nil tab text parts).elim
        | cons head tail =>
            rw [parts] at member older
            rcases List.mem_cons.mp member with rfl | later
            · rw [List.forall_mem_cons]
              refine ⟨⟨List.mem_cons_self, ?_⟩, older List.mem_cons_self⟩
              rintro rfl
              exact other BEq.rfl
            · exact older (List.mem_cons_of_mem head later)

/-- What a reader shows has neither tabs nor line breaks. -/
structure IsInertItem (item : GophermapItem) : Prop where
  display : IsInert item.display
  selector : IsInert item.selector
  host : IsInert item.host

theorem isInert_of_mem_splitOn {text part : Text}
    (unbroken : ∀ character ∈ text, isLineBreak character = false)
    (member : part ∈ text.splitOn tab) : IsInert part := by
  intro character inPart
  obtain ⟨inText, noTab⟩ := mem_of_mem_splitOn member character inPart
  exact ⟨noTab, unbroken character inText⟩

theorem isInertItem_of_parseLine {line : Text} {item : GophermapItem}
    (unbroken : ∀ character ∈ line, isLineBreak character = false)
    (read : parseLine line = some item) : IsInertItem item := by
  cases line with
  | nil => cases read
  | cons itemType rest =>
      have inert : ∀ part ∈ rest.splitOn tab, IsInert part :=
        fun part member => isInert_of_mem_splitOn
          (List.forall_mem_cons.mp unbroken).2 member
      rw [parseLine] at read
      split at read
      next isInfo =>
        obtain rfl := Option.some.inj read
        cases parts : rest.splitOn tab with
        | nil => exact (List.splitOn_ne_nil tab rest parts).elim
        | cons display others =>
            rw [parts] at inert
            exact ⟨inert display List.mem_cons_self, List.forall_mem_nil _,
              List.forall_mem_nil _⟩
      next =>
        split at read
        next display selector host port others parts =>
          obtain rfl := Option.some.inj read
          rw [parts] at inert
          exact ⟨inert display (by simp), inert selector (by simp),
            inert host (by simp)⟩
        next => cases read

theorem isInertItem_of_parse {text : Text} {item : GophermapItem}
    (member : item ∈ (parse text).items) : IsInertItem item := by
  obtain ⟨line, lineMem, read⟩ := List.mem_filterMap.mp member
  obtain ⟨whole, wholeMem, rfl⟩ :=
    List.mem_map.mp ((List.takeWhile_sublist _).mem lineMem)
  have kept : rstripLineEnd whole <+: whole := List.rdropWhile_prefix _ _
  refine isInertItem_of_parseLine (fun character inLine => ?_) read
  exact unbroken_of_mem_splitLines wholeMem character (kept.mem inLine)

theorem isInert_of_item {line : Line} {item : GophermapItem}
    (isItem : line.item = some item) (inert : IsInertItem item) :
    line.IsInert := by
  have number : ∀ {port : Column} {number : Int},
      port.number = some number → port = .integer number := by
    intro port number isNumber
    cases port with
    | integer value => exact congrArg Column.integer (Option.some.inj isNumber)
    | null | real | text => cases isNumber
  cases line with
  | infoLine text =>
      obtain rfl := Option.some.inj isItem
      exact inert.display
  | menuLink display selector host port
  | searchLink display selector host port =>
      obtain ⟨value, isNumber, rfl⟩ := Option.map_eq_some_iff.mp isItem
      exact ⟨inert.display, inert.selector, inert.host, value, number isNumber⟩

theorem exists_of_mapM {lines : List Line} {items : List GophermapItem}
    (mapped : lines.mapM Line.item = some items) :
    ∀ line ∈ lines, ∃ item ∈ items, line.item = some item := by
  induction lines generalizing items with
  | nil => exact List.forall_mem_nil _
  | cons line lines ih =>
      rw [List.mapM_cons] at mapped
      obtain ⟨item, isItem, rest⟩ := Option.bind_eq_some_iff.mp mapped
      obtain ⟨others, areOthers, isCons⟩ := Option.bind_eq_some_iff.mp rest
      obtain rfl := Option.some.inj isCons
      rw [List.forall_mem_cons]
      refine ⟨⟨item, List.mem_cons_self, isItem⟩, fun other member => ?_⟩
      obtain ⟨found, foundMem, isFound⟩ := ih areOthers other member
      exact ⟨found, List.mem_cons_of_mem item foundMem, isFound⟩

/-- A menu is read as it is meant if no text in it ends a field or a line. -/
theorem mapM_item_eq_iff {lines : List Line} :
    lines.mapM Line.item = some (parse (printed lines)).items ↔
      ∀ line ∈ lines, line.IsInert := by
  constructor
  · intro same line member
    obtain ⟨item, itemMem, isItem⟩ := exists_of_mapM same line member
    exact isInert_of_item isItem (isInertItem_of_parse itemMem)
  · intro inert
    rw [items_parse_printed inert, mapM_item inert]

end Forging

section Targets

open Line

variable {hostname : Text} {port : Int}

theorem filterMap_target_holeLines (hole : Row) :
    (holeLines hostname port hole).filterMap Line.target =
      [(hole.selector, hostname, .integer port)] := by
  rw [holeLines, descriptionLines]
  split <;> rfl

theorem filterMap_target_peerLines (peer : Peer) :
    (peerLines peer).filterMap Line.target =
      ("/".toList, shown peer.hostname, peer.port) ::
        if peer.onionAddress.getD [] = [] then []
        else [("/".toList, peer.onionAddress.getD [], .integer 7070)] := by
  rw [peerLines, onionLines]
  split <;> rfl

/-- There is one link for every record, and the links of the frame. -/
theorem filterMap_target_lines (menu : Menu) :
    (menu.lines hostname port).filterMap Line.target =
      menu.targets hostname port := by
  cases menu with
  | directory holes =>
      rw [Menu.lines, directoryLines, List.filterMap_append,
        List.filterMap_append, List.filterMap_flatMap]
      simp only [filterMap_target_holeLines]
      rw [Menu.targets, List.map_eq_flatMap]
      rfl
  | peers known =>
      rw [Menu.lines, peersLines, List.filterMap_append,
        List.filterMap_append]
      split
      next empty =>
        rw [empty]
        rfl
      next =>
        rw [List.filterMap_flatMap]
        simp only [filterMap_target_peerLines]
        rfl
  | search selector index =>
      rw [Menu.lines, searchLines, Menu.targets]
      split
      next => rfl
      next =>
        rw [resultLines, List.filterMap_append, List.filterMap_append]
        split
        next empty =>
          rw [empty]
          rfl
        next =>
          rw [List.filterMap_append, List.filterMap_map]
          congr 1
          exact congrFun List.filterMap_eq_map _

end Targets

section Menus

open Line

variable {hostname : Text} {port : Int}

theorem isInert_iff_true {text : Text} (inert : IsInert text) :
    IsInert text ↔ True := iff_true_intro inert

theorem isInert_infoLine {text : Text} :
    (infoLine text).IsInert ↔ IsInert text := Iff.rfl

theorem isInert_menuLink_column {display selector host : Text}
    {port : Column} :
    (menuLink display selector host port).IsInert ↔
      IsInert display ∧ IsInert selector ∧ IsInert host ∧
        ∃ number, port = .integer number :=
  Iff.rfl

theorem isInert_menuLink {display selector host : Text} {port : Int} :
    (menuLink display selector host (.integer port)).IsInert ↔
      IsInert display ∧ IsInert selector ∧ IsInert host := by
  simp only [Line.IsInert, Column.integer.injEq, exists_eq', and_true]

theorem isInert_searchLink {display selector host : Text} {port : Int} :
    (searchLink display selector host (.integer port)).IsInert ↔
      IsInert display ∧ IsInert selector ∧ IsInert host := by
  simp only [Line.IsInert, Column.integer.injEq, exists_eq', and_true]

theorem isInert_numeral (number : Nat) : IsInert (numeral number) :=
  isInert_intText (Int.ofNat number)

theorem IsInert.take {text : Text} (inert : IsInert text) (count : Nat) :
    IsInert (text.take count) :=
  fun character member => inert character (List.mem_of_mem_take member)

theorem isInert_descriptionLines {description : Text} :
    (∀ line ∈ descriptionLines description, line.IsInert) ↔
      IsInert description := by
  rw [descriptionLines]
  split
  next empty =>
    rw [empty]
    exact iff_of_true (List.forall_mem_nil _) (List.forall_mem_nil _)
  next =>
    simp (disch := decide) only [List.forall_mem_singleton, isInert_infoLine,
      isInert_append, isInert_iff_true, true_and]

theorem isInert_onionLines {onionAddress : Text} :
    (∀ line ∈ onionLines onionAddress, line.IsInert) ↔
      IsInert onionAddress := by
  rw [onionLines]
  split
  next empty =>
    rw [empty]
    exact iff_of_true (List.forall_mem_nil _) (List.forall_mem_nil _)
  next =>
    simp (disch := decide) only [List.forall_mem_singleton, isInert_menuLink,
      isInert_append, isInert_iff_true, true_and, and_true]
    exact and_iff_right_of_imp fun inert => inert.take 20

theorem isInert_shownLatency {latency : Option Text} :
    IsInert (shownLatency latency) ↔ IsInert (latency.getD []) := by
  cases latency with
  | none => exact iff_of_true (by decide) (List.forall_mem_nil _)
  | some latency =>
      simp (disch := decide) only [shownLatency, isInert_append,
        isInert_iff_true, and_true, Option.getD_some]

theorem isInert_holeLines {hole : Row} :
    (∀ line ∈ holeLines hostname port hole, line.IsInert) ↔
      IsInert hostname ∧ IsInertHole hole := by
  simp (disch := decide) only [holeLines, List.forall_mem_append,
    List.forall_mem_cons, List.not_mem_nil, false_implies, implies_true,
    isInert_descriptionLines, isInert_infoLine, isInert_menuLink,
    isInert_append, isInert_iff_true, true_and, and_true]
  constructor
  · rintro ⟨⟨⟨⟨name, pid⟩, selector, host⟩, description⟩, registeredAt, source⟩
    exact ⟨host, name, pid, selector, description, registeredAt, source⟩
  · rintro ⟨host, inert⟩
    exact ⟨⟨⟨⟨inert.name, inert.pid⟩, inert.selector, host⟩,
      inert.description⟩, inert.registeredAt, inert.source⟩

theorem isInert_peerLines {peer : Peer} :
    (∀ line ∈ peerLines peer, line.IsInert) ↔ IsInertPeer peer := by
  have answer : IsInert (if peer.onionAddress.getD [] = [] then "no".toList
      else "yes".toList) := by
    split <;> decide
  simp (disch := decide) only [peerLines, List.forall_mem_append,
    List.forall_mem_cons, List.not_mem_nil, false_implies, implies_true,
    isInert_onionLines, isInert_shownLatency, isInert_infoLine,
    isInert_menuLink_column, isInert_append, isInert_iff_true,
    isInert_iff_true answer, true_and, and_true]
  constructor
  · rintro ⟨⟨⟨⟨⟨name, host⟩, -⟩, -, number⟩, onion⟩, ⟨status, latency⟩, pid⟩
    exact ⟨name, host, number, onion, status, latency, pid⟩
  · intro inert
    have shownPort : IsInert peer.port.shown := by
      obtain ⟨number, isNumber⟩ := inert.port
      rw [isNumber]
      exact isInert_intText number
    exact ⟨⟨⟨⟨⟨inert.pillarName, inert.hostname⟩, shownPort⟩, inert.hostname,
      inert.port⟩, inert.onionAddress⟩, ⟨inert.status, inert.latencyMs⟩,
      inert.pid⟩

theorem isInert_separator : separator.IsInert := by
  change IsInert (List.replicate 60 '─')
  decide

theorem isInert_backToRoot :
    (backToRoot hostname port).IsInert ↔ IsInert hostname := by
  simp (disch := decide) only [backToRoot, isInert_menuLink, isInert_iff_true,
    true_and]

theorem isInert_directoryLines {holes : List Row} :
    (∀ line ∈ directoryLines hostname port holes, line.IsInert) ↔
      IsInert hostname ∧ ∀ hole ∈ holes, IsInertHole hole := by
  simp (disch := decide) only [directoryLines, List.forall_mem_append,
    List.forall_mem_cons, List.not_mem_nil, false_implies, implies_true,
    List.forall_mem_flatMap, isInert_holeLines, isInert_infoLine, isInert_separator,
    isInert_backToRoot, isInert_append, isInert_iff_true,
    isInert_iff_true (isInert_numeral holes.length), true_and, and_true]
  constructor
  · rintro ⟨inert, host⟩
    exact ⟨host, fun hole member => (inert hole member).2⟩
  · rintro ⟨host, inert⟩
    exact ⟨fun hole member => ⟨host, inert hole member⟩, host⟩

theorem isInert_peersLines {peers : List Peer} :
    (∀ line ∈ peersLines hostname port peers, line.IsInert) ↔
      IsInert hostname ∧ ∀ peer ∈ peers, IsInertPeer peer := by
  have middle : (∀ line ∈ if peers = [] then
      [infoLine "  No peers discovered yet.".toList,
        infoLine "  Other Pillars on your network will appear here.".toList]
      else peers.flatMap peerLines, line.IsInert) ↔
        ∀ peer ∈ peers, IsInertPeer peer := by
    split
    next empty =>
      rw [empty]
      refine iff_of_true ?_ (List.forall_mem_nil _)
      simp (disch := decide) only [List.forall_mem_cons, List.not_mem_nil,
        false_implies, implies_true, isInert_infoLine, isInert_iff_true,
        and_true]
    next =>
      simp only [List.forall_mem_flatMap, isInert_peerLines]
  simp (disch := decide) only [peersLines, List.forall_mem_append,
    List.forall_mem_cons, List.not_mem_nil, false_implies, implies_true,
    isInert_infoLine, isInert_separator, isInert_backToRoot, middle,
    isInert_iff_true, true_and, and_true]
  exact and_comm

theorem isInert_resultLines {query : Text} {results : List SearchResult} :
    (∀ line ∈ resultLines hostname port query results, line.IsInert) ↔
      IsInert hostname ∧ IsInert query ∧
        ∀ result ∈ results, IsInertResult result := by
  have middle : (∀ line ∈ if results = [] then
      [infoLine "  No results found.".toList]
      else [infoLine ("  ".toList ++ numeral results.length ++
        " result(s) found".toList), infoLine []] ++
        results.map fun result => menuLink ("  ".toList ++ result.name)
          result.selector hostname (.integer port), line.IsInert) ↔
        ∀ result ∈ results, IsInertResult result ∧ IsInert hostname := by
    split
    next empty =>
      rw [empty]
      refine iff_of_true ?_ (List.forall_mem_nil _)
      rw [List.forall_mem_singleton]
      exact show IsInert "  No results found.".toList by decide
    next =>
      simp (disch := decide) only [List.forall_mem_append,
        List.forall_mem_cons, List.not_mem_nil, false_implies, implies_true,
        List.forall_mem_map, isInert_infoLine, isInert_menuLink,
        isInert_append, isInert_iff_true,
        isInert_iff_true (isInert_numeral results.length), true_and, and_true]
      refine forall₂_congr fun result _ => ?_
      constructor
      · rintro ⟨name, selector, host⟩
        exact ⟨⟨name, selector⟩, host⟩
      · rintro ⟨inert, host⟩
        exact ⟨inert.name, inert.selector, host⟩
  simp (disch := decide) only [resultLines, List.forall_mem_append,
    List.forall_mem_cons, List.not_mem_nil, false_implies, implies_true,
    isInert_infoLine, isInert_separator, isInert_searchLink,
    isInert_backToRoot, middle, isInert_append, isInert_iff_true, true_and,
    and_true, and_self]
  constructor
  · rintro ⟨⟨isQuery, inert⟩, host⟩
    exact ⟨host, isQuery, fun result member => (inert result member).1⟩
  · rintro ⟨host, isQuery, inert⟩
    exact ⟨⟨isQuery, fun result member => ⟨inert result member, host⟩⟩, host⟩

theorem isInert_searchLines {selector : Text} {index : ContentIndex} :
    (∀ line ∈ searchLines hostname port selector index, line.IsInert) ↔
      IsInert hostname ∧ (Menu.search selector index).IsInert := by
  rw [searchLines, Menu.IsInert]
  split
  next empty =>
    simp (disch := decide) only [List.forall_mem_cons, List.not_mem_nil,
      false_implies, implies_true, isInert_infoLine, isInert_separator,
      isInert_searchLink, isInert_backToRoot, isInert_iff_true, true_and,
      and_true, and_self]
    exact (and_iff_left fun nonempty => (nonempty empty).elim).symm
  next nonempty =>
    rw [isInert_resultLines, forall_prop_of_true nonempty]

/-- A gopherhole whose name goes on with fields of its own. -/
def forgedHole : Row where
  pid := "0a".toList
  selector := "/holes/a".toList
  name := [tab].intercalate
    ["a".toList, "/".toList, "evil.example".toList, "70".toList, []]
  description := none
  ownerAddress := none
  pubkeyHex := []
  signature := []
  registeredAt := "2026-01-01".toList
  txHash := []
  source := some "local".toList

end Menus

end GopherMenus

end RefinetPillars
