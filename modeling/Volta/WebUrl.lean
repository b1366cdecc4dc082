/-
URLs with the schemes `http`, `https`, `ws` and `wss`, as a browser reads them.

A text is read on its own, not relative to a page.  A URL with a user name or a
password is left out: no request is made for one.  The parser of hosts, which also
serializes them, is a parameter.

* `parse_append`, `readRest_append` — the parts of a URL are read one after the
  other;
* `readPath_append` — the last segment of a path comes after the others;
* `Url.WellFormed` — a URL as the parser gives it;
* `Url.WellFormed.parse_serialize` — such a URL, written as a text, is read back.
-/
import Volta.Numeral
import Volta.PercentEncoding
import Mathlib.Data.List.DropRight
import Mathlib.Data.List.TakeWhile

namespace WebUrl

open PercentEncoding

/-! ### Characters -/

/-- A control character or a space. -/
def isBlank (c : Char) : Bool := c.toNat ≤ 32

def isTabOrNewline (c : Char) : Bool := c.toNat ∈ [9, 10, 13]

def isSlash (c : Char) : Bool := c = '/' || c = '\\'

/-- The C0 control percent-encode set. -/
def controlSet (c : Char) : Bool := c.toNat ≤ 31 || 126 < c.toNat

def fragmentSet (c : Char) : Bool := controlSet c || [' ', '"', '<', '>', '`'].contains c

def querySet (c : Char) : Bool := controlSet c || [' ', '"', '#', '<', '>'].contains c

def specialQuerySet (c : Char) : Bool := querySet c || c = '\''

def pathSet (c : Char) : Bool := querySet c || ['?', '^', '`', '{', '}'].contains c

/-! ### URLs -/

inductive Scheme where
  | http
  | https
  | ws
  | wss
  deriving DecidableEq

def Scheme.text : Scheme → List Char
  | http => ['h', 't', 't', 'p']
  | https => ['h', 't', 't', 'p', 's']
  | ws => ['w', 's']
  | wss => ['w', 's', 's']

def Scheme.defaultPort : Scheme → ℕ
  | http => 80
  | https => 443
  | ws => 80
  | wss => 443

structure Url where
  scheme : Scheme
  host : List Char
  port : Option ℕ := none
  path : List (List Char)
  query : Option (List Char) := none
  fragment : Option (List Char) := none
  deriving DecidableEq

/-- Reads the host of a URL, and gives its serialization. -/
abbrev HostParser := List Char → Option (List Char)

/-! ### The parser -/

def readScheme (l : List Char) : Option Scheme :=
  [Scheme.http, .https, .ws, .wss].find? fun scheme => l.map Char.toLower = scheme.text

/-- The text up to a colon that is not in brackets, and what is after it. -/
def splitPort : Bool → List Char → List Char × Option (List Char)
  | _, [] => ([], none)
  | inside, c :: l =>
      if c = ':' && !inside then ([], some l)
      else
        let rest := splitPort (if c = '[' then true else if c = ']' then false else inside) l
        (c :: rest.1, rest.2)

/-- The port that is kept, which is not the default one. -/
def readPort (scheme : Scheme) : Option (List Char) → Option (Option ℕ)
  | none => some none
  | some l =>
      if l.all Char.isDigit then
        if l.isEmpty then some none
        else if Numeral.value 10 l ≤ 65535 then
          if Numeral.value 10 l = scheme.defaultPort then some none
          else some (some (Numeral.value 10 l))
        else none
      else none

def isSingleDot (segment : List Char) : Bool :=
  [['.'], ['%', '2', 'e']].contains (segment.map Char.toLower)

def isDoubleDot (segment : List Char) : Bool :=
  [['.', '.'], ['.', '%', '2', 'e'], ['%', '2', 'e', '.'],
    ['%', '2', 'e', '%', '2', 'e']].contains (segment.map Char.toLower)

/-- A segment with a slash after it. -/
def pushSegment (path : List (List Char)) (segment : List Char) : List (List Char) :=
  if isDoubleDot segment then path.dropLast
  else if isSingleDot segment then path
  else path ++ [segment]

def pushLast (path : List (List Char)) (segment : List Char) : List (List Char) :=
  -- dots at the end stand for a directory, which has an empty last segment
  if isDoubleDot segment then path.dropLast ++ [[]]
  else if isSingleDot segment then path ++ [[]]
  else path ++ [segment]

def readSegments (path : List (List Char)) : List (List Char) → List (List Char)
  | [] => path
  | [last] => pushLast path last
  | segment :: segments => readSegments (pushSegment path segment) segments

/-- The segments of a text, without the slash in front of it. -/
def segments (l : List Char) : List (List Char) := (l.splitOnP isSlash).map (encode pathSet)

def dropSlash : List Char → List Char
  | [] => []
  | c :: l => if isSlash c then l else c :: l

def readPath (l : List Char) : List (List Char) := readSegments [] (segments (dropSlash l))

def readFragment : List Char → Option (List Char)
  | '#' :: l => some (encode fragmentSet l)
  | _ => none

def readQuery : List Char → Option (List Char)
  | '?' :: l => some (encode specialQuerySet (l.takeWhile fun c => c ≠ '#'))
  | _ => none

def isPathEnd (c : Char) : Bool := c = '?' || c = '#'

/-- The host and the port. -/
def readAuthority (host : HostParser) (scheme : Scheme) (l : List Char) :
    Option (List Char × Option ℕ) :=
  if l.contains '@' || (splitPort false l).1.isEmpty then none
  else
    (host (splitPort false l).1).bind fun h =>
      (readPort scheme (splitPort false l).2).map fun port => (h, port)

def isAuthorityEnd (c : Char) : Bool := isSlash c || isPathEnd c

/-- What is after the authority. -/
def readAfter (scheme : Scheme) (authority : List Char × Option ℕ) (l : List Char) : Url where
  scheme := scheme
  host := authority.1
  port := authority.2
  path := readPath (l.takeWhile fun c => !isPathEnd c)
  query := readQuery (l.dropWhile fun c => !isPathEnd c)
  fragment := readFragment (l.dropWhile fun c => c ≠ '#')

/-- What is after the scheme and its slashes. -/
def readRest (host : HostParser) (scheme : Scheme) (l : List Char) : Option Url :=
  (readAuthority host scheme (l.takeWhile fun c => !isAuthorityEnd c)).map fun authority =>
    readAfter scheme authority (l.dropWhile fun c => !isAuthorityEnd c)

/-- The text that is read. -/
def strip (l : List Char) : List Char :=
  ((l.dropWhile isBlank).rdropWhile isBlank).filter fun c => !isTabOrNewline c

def parse (host : HostParser) (input : List Char) : Option Url :=
  let l := strip input
  match l.dropWhile fun c => c ≠ ':' with
  | [] => none
  | _ :: rest =>
      (readScheme (l.takeWhile fun c => c ≠ ':')).bind fun scheme =>
        readRest host scheme (rest.dropWhile isSlash)

/-! ### The serializer and the setters -/

def portText : Option ℕ → List Char
  | none => []
  | some port => ':' :: Nat.toDigits 10 port

def pathText (path : List (List Char)) : List Char := path.flatMap fun segment => '/' :: segment

def queryText : Option (List Char) → List Char
  | none => []
  | some query => '?' :: query

def fragmentText : Option (List Char) → List Char
  | none => []
  | some fragment => '#' :: fragment

def serialize (url : Url) : List Char :=
  url.scheme.text ++ [':', '/', '/'] ++ url.host ++ portText url.port ++ pathText url.path ++
    queryText url.query ++ fragmentText url.fragment

def setProtocol (url : Url) (scheme : Scheme) : Url :=
  { url with
    scheme := scheme
    port := if url.port = some scheme.defaultPort then none else url.port }

def setPathname (url : Url) (value : List Char) : Url :=
  { url with path := readPath (value.filter fun c => !isTabOrNewline c) }

def setSearch (url : Url) : List Char → Url
  | [] => { url with query := none }
  | c :: l =>
      let value := if c = '?' then l else c :: l
      { url with query := some (encode specialQuerySet (value.filter fun c => !isTabOrNewline c)) }

/-! ### The parts of a text -/

theorem isTabOrNewline_eq_false {c : Char} (h : isBlank c = false) : isTabOrNewline c = false := by
  have hlt := of_decide_eq_false h
  simp only [isTabOrNewline, List.mem_cons, List.not_mem_nil, or_false, decide_eq_false_iff_not]
  omega

theorem filter_eq_self {l : List Char} (h : ∀ c ∈ l, isTabOrNewline c = false) :
    (l.filter fun c => !isTabOrNewline c) = l := by
  rw [List.filter_eq_self]
  intro c hc
  rw [h c hc]
  rfl

/-- There is nothing to strip from a text without blanks. -/
theorem strip_eq_self {l : List Char} (h : ∀ c ∈ l, isBlank c = false) : strip l = l := by
  have hdrop : l.dropWhile isBlank = l := by
    rw [List.dropWhile_eq_self_iff]
    intro hl
    rw [h _ (List.getElem_mem hl)]
    exact Bool.false_ne_true
  have hrdrop : l.rdropWhile isBlank = l := by
    rw [List.rdropWhile_eq_self_iff]
    intro hl
    rw [h _ (List.getLast_mem hl)]
    exact Bool.false_ne_true
  rw [strip, hdrop, hrdrop, filter_eq_self]
  exact fun c hc => isTabOrNewline_eq_false (h c hc)

theorem readScheme_eq {scheme : Scheme} {s : List Char} (hs : s.map Char.toLower = scheme.text) :
    readScheme s = some scheme := by
  rw [readScheme, hs]
  cases scheme <;> decide

theorem colon_notMem {scheme : Scheme} {s : List Char} (hs : s.map Char.toLower = scheme.text) :
    ':' ∉ s := by
  intro hmem
  have hcolon : ':' ∈ scheme.text := by
    rw [← hs]
    exact List.mem_map.mpr ⟨':', hmem, rfl⟩
  cases scheme <;> exact absurd hcolon (by decide)

theorem isBlank_of_toLower {scheme : Scheme} {s : List Char}
    (hs : s.map Char.toLower = scheme.text) : ∀ c ∈ s, isBlank c = false := by
  intro c hc
  have hmem : c.toLower ∈ scheme.text := hs ▸ List.mem_map_of_mem hc
  have hkept : ∀ d ∈ scheme.text, isBlank d = false := by
    cases scheme <;> simp [Scheme.text, isBlank]
  by_contra hblank
  rw [Bool.not_eq_false] at hblank
  have hle : c.toNat ≤ 32 := of_decide_eq_true hblank
  have hlower : c.toLower = c := by
    refine dif_neg fun h => ?_
    have hge : 65 ≤ c.toNat := h.1
    omega
  rw [hlower] at hmem
  rw [hkept c hmem] at hblank
  exact absurd hblank (by simp)

/-- A text that begins with a scheme and two slashes. -/
theorem parse_append {host : HostParser} {scheme : Scheme} {s l : List Char}
    (hs : s.map Char.toLower = scheme.text) (hblank : ∀ c ∈ l, isBlank c = false)
    (hl : ∀ c ∈ l.head?, isSlash c = false) :
    parse host (s ++ ':' :: '/' :: '/' :: l) = readRest host scheme l := by
  have hkept : ∀ c ∈ s ++ ':' :: '/' :: '/' :: l, isBlank c = false := by
    simp only [List.forall_mem_append, List.forall_mem_cons]
    exact ⟨isBlank_of_toLower hs, by decide, by decide, by decide, hblank⟩
  have hcolon : ∀ c ∈ s, decide (c ≠ ':') = true := by
    intro c hc
    exact decide_eq_true (ne_of_mem_of_not_mem hc (colon_notMem hs))
  obtain ⟨htake, hdrop⟩ := Numeral.span_append (r := ':' :: '/' :: '/' :: l) hcolon (by simp)
  obtain ⟨-, hslashes⟩ :=
    Numeral.span_append (p := isSlash) (l := ['/', '/']) (by simp [isSlash]) hl
  rw [parse, strip_eq_self hkept, htake, hdrop]
  dsimp only
  rw [readScheme_eq hs, Option.bind_some]
  exact congrArg _ hslashes

theorem readRest_append {host : HostParser} {scheme : Scheme} {a rest : List Char}
    (ha : ∀ c ∈ a, isAuthorityEnd c = false) (hrest : ∀ c ∈ rest.head?, isAuthorityEnd c = true) :
    readRest host scheme (a ++ rest)
      = (readAuthority host scheme a).map fun authority => readAfter scheme authority rest := by
  obtain ⟨htake, hdrop⟩ := Numeral.span_append (p := fun c => !isAuthorityEnd c)
    (fun c hc => by rw [ha c hc]; rfl) (fun c hc => by rw [hrest c hc]; rfl)
  rw [readRest, htake, hdrop]

/-! ### Paths -/

theorem readSegments_append (path : List (List Char)) (l : List (List Char)) {last : List Char} :
    readSegments path (l ++ [last]) = pushLast (l.foldl pushSegment path) last := by
  induction l generalizing path with
  | nil => rfl
  | cons segment l ih =>
    have hne : l ++ [last] ≠ [] := by simp
    rw [List.cons_append, readSegments, ih]
    · rfl
    · exact hne

/-- A segment that stands for itself. -/
structure IsSegment (segment : List Char) : Prop where
  notSlash : ∀ c ∈ segment, isSlash c = false
  kept : ∀ c ∈ segment, pathSet c = false
  notSingleDot : isSingleDot segment = false
  notDoubleDot : isDoubleDot segment = false

theorem IsSegment.pushSegment_eq {segment : List Char} (h : IsSegment segment)
    (path : List (List Char)) : pushSegment path segment = path ++ [segment] := by
  rw [pushSegment, h.notDoubleDot, h.notSingleDot]
  rfl

theorem IsSegment.pushLast_eq {segment : List Char} (h : IsSegment segment)
    (path : List (List Char)) : pushLast path segment = path ++ [segment] := by
  rw [pushLast, h.notDoubleDot, h.notSingleDot]
  rfl

theorem readSegments_eq {l : List (List Char)} (hl : ∀ segment ∈ l, IsSegment segment)
    (path : List (List Char)) : readSegments path l = path ++ l := by
  induction l generalizing path with
  | nil => exact (List.append_nil path).symm
  | cons segment l ih =>
    rw [List.forall_mem_cons] at hl
    cases l with
    | nil => exact hl.1.pushLast_eq path
    | cons next l =>
      rw [readSegments, ih hl.2, hl.1.pushSegment_eq, List.append_assoc]
      · rfl
      · simp

/-- A segment that is put after a path. -/
theorem readPath_append {l segment : List Char} (h : IsSegment segment) (hl : l ≠ []) :
    readPath (l ++ '/' :: segment)
      = (segments (dropSlash l)).foldl pushSegment [] ++ [segment] := by
  have hdrop : dropSlash (l ++ '/' :: segment) = dropSlash l ++ '/' :: segment := by
    cases l with
    | nil => exact absurd rfl hl
    | cons c l =>
      rw [List.cons_append, dropSlash, dropSlash]
      split
      · rfl
      · rfl
  have hsegments : segments (dropSlash l ++ '/' :: segment)
      = segments (dropSlash l) ++ [segment] := by
    rw [segments, List.splitOnP_append_cons _ _ rfl, List.splitOnP_eq_singleton h.notSlash,
      List.map_append, List.map_singleton, encode_eq_self h.kept]
    rfl
  rw [readPath, hdrop, hsegments, readSegments_append, h.pushLast_eq]

theorem segments_pathText {segment : List Char} {l : List (List Char)}
    (h : IsSegment segment) (hl : ∀ segment ∈ l, IsSegment segment) :
    segments (segment ++ pathText l) = segment :: l := by
  induction l generalizing segment with
  | nil =>
    show segments (segment ++ []) = _
    rw [List.append_nil, segments, List.splitOnP_eq_singleton h.notSlash, List.map_singleton,
      encode_eq_self h.kept]
  | cons next l ih =>
    rw [List.forall_mem_cons] at hl
    have hrest := ih hl.1 hl.2
    show segments (segment ++ '/' :: (next ++ pathText l)) = _
    rw [segments] at hrest ⊢
    rw [List.splitOnP_append_cons_of_forall_mem h.notSlash _ rfl, List.map_cons, hrest,
      encode_eq_self h.kept]

/-- A path is read back. -/
theorem readPath_pathText {path : List (List Char)} (hne : path ≠ [])
    (hpath : ∀ segment ∈ path, IsSegment segment) : readPath (pathText path) = path := by
  cases path with
  | nil => exact absurd rfl hne
  | cons segment l =>
    have hall := hpath
    rw [List.forall_mem_cons] at hpath
    show readSegments [] (segments (segment ++ pathText l)) = _
    rw [segments_pathText hpath.1 hpath.2, readSegments_eq hall]
    rfl

/-! ### Setters -/

theorem setPathname_eq {url : Url} {path : List (List Char)} (hne : path ≠ [])
    (hpath : ∀ segment ∈ path, IsSegment segment)
    (htab : ∀ c ∈ pathText path, isTabOrNewline c = false) :
    setPathname url (pathText path) = { url with path := path } := by
  rw [setPathname, filter_eq_self htab, readPath_pathText hne hpath]

theorem setSearch_eq {url : Url} {c : Char} {l : List Char} (hc : c ≠ '?')
    (htab : ∀ d ∈ c :: l, isTabOrNewline d = false) :
    setSearch url (c :: l) = { url with query := some (encode specialQuerySet (c :: l)) } := by
  rw [setSearch, if_neg hc, filter_eq_self htab]

/-! ### Hosts and ports -/

/-- The character ends neither the authority nor what is in it. -/
structure IsInner (c : Char) : Prop where
  notBlank : isBlank c = false
  notEnd : isAuthorityEnd c = false
  notAt : c ≠ '@'

/-- The serialization of a host: a name or an address, the latter in brackets if it
has colons. -/
structure IsHost (h : List Char) : Prop where
  ne_nil : h ≠ []
  isInner : ∀ c ∈ h, IsInner c
  brackets : (∀ c ∈ h, c ≠ ':' ∧ c ≠ '[' ∧ c ≠ ']') ∨
    ∃ m, h = '[' :: (m ++ [']']) ∧ ∀ c ∈ m, c ≠ '[' ∧ c ≠ ']'

/-- The parser serializes hosts, and reads them back. -/
structure HostParser.Documented (host : HostParser) : Prop where
  isHost : ∀ l h, host l = some h → IsHost h
  reparse : ∀ l h, host l = some h → host h = some h

theorem splitPort_append {inside : Bool} {m : List Char}
    (hm : ∀ c ∈ m, (c ≠ ':' ∨ inside = true) ∧ c ≠ '[' ∧ c ≠ ']') (l : List Char) :
    splitPort inside (m ++ l) = (m ++ (splitPort inside l).1, (splitPort inside l).2) := by
  induction m with
  | nil => rfl
  | cons c m ih =>
    rw [List.forall_mem_cons] at hm
    obtain ⟨⟨hcolon, hopen, hclose⟩, hm⟩ := hm
    rw [List.cons_append, splitPort, if_neg, if_neg hopen, if_neg hclose, ih hm]
    · rfl
    · rcases hcolon with hcolon | hinside
      · simp [hcolon]
      · simp [hinside]

theorem IsHost.splitPort_eq {h : List Char} (hh : IsHost h) (l : List Char) :
    splitPort false (h ++ l) = (h ++ (splitPort false l).1, (splitPort false l).2) := by
  rcases hh.brackets with hname | ⟨m, rfl, hm⟩
  · exact splitPort_append (fun c hc => ⟨.inl (hname c hc).1, (hname c hc).2⟩) l
  · have hclose : splitPort true (']' :: l)
        = (']' :: (splitPort false l).1, (splitPort false l).2) := rfl
    have hinner : splitPort true (m ++ ']' :: l)
        = (m ++ (splitPort true (']' :: l)).1, (splitPort true (']' :: l)).2) :=
      splitPort_append (fun c hc => ⟨.inr rfl, hm c hc⟩) _
    have hopen : splitPort false ('[' :: (m ++ ']' :: l))
        = ('[' :: (splitPort true (m ++ ']' :: l)).1, (splitPort true (m ++ ']' :: l)).2) := rfl
    rw [List.cons_append, List.append_assoc, List.singleton_append, hopen, hinner, hclose]
    simp

theorem readPort_eq_some {scheme : Scheme} {l : Option (List Char)} {port : Option ℕ}
    (h : readPort scheme l = some port) : ∀ n ∈ port, n ≤ 65535 ∧ n ≠ scheme.defaultPort := by
  intro n hn
  rw [Option.mem_def] at hn
  subst hn
  cases l with
  | none => exact absurd h (by simp [readPort])
  | some l =>
    rw [readPort] at h
    split_ifs at h with hdigits hempty hle hdefault
    · exact absurd h (by simp)
    · exact absurd h (by simp)
    · obtain rfl := Option.some_inj.mp (Option.some_inj.mp h)
      exact ⟨hle, hdefault⟩

theorem readPort_portText {scheme : Scheme} {port : Option ℕ}
    (h : ∀ n ∈ port, n ≤ 65535 ∧ n ≠ scheme.defaultPort) :
    readPort scheme (splitPort false (portText port)).2 = some port := by
  cases port with
  | none => rfl
  | some n =>
    obtain ⟨hle, hdefault⟩ := h n rfl
    have hdigits : (Nat.toDigits 10 n).all Char.isDigit = true := by
      rw [List.all_eq_true]
      intro c hc
      exact Nat.isDigit_of_mem_toDigits (by decide) (by decide) hc
    have hvalue := Numeral.value_toDigits (b := 10) (by decide) (by decide) n
    show readPort scheme (some (Nat.toDigits 10 n)) = _
    rw [readPort, if_pos hdigits, if_neg, hvalue, if_pos hle, if_neg hdefault]
    rw [List.isEmpty_iff]
    exact Nat.toDigits_ne_nil

theorem isInner_of_isDigit {c : Char} (h : c.isDigit = true) : IsInner c := by
  obtain ⟨hle, hle'⟩ : 48 ≤ c.toNat ∧ c.toNat ≤ 57 := Char.isDigit_iff_toNat.mp h
  refine ⟨decide_eq_false (by omega), ?_, ?_⟩
  · rw [isAuthorityEnd, isSlash, isPathEnd, Bool.or_eq_false_iff, Bool.or_eq_false_iff,
      Bool.or_eq_false_iff]
    refine ⟨⟨decide_eq_false ?_, decide_eq_false ?_⟩, decide_eq_false ?_, decide_eq_false ?_⟩
    all_goals
      rintro rfl
      exact absurd h (by decide)
  · rintro rfl
    exact absurd h (by decide)

theorem isInner_portText {port : Option ℕ} : ∀ c ∈ portText port, IsInner c := by
  intro c hc
  cases port with
  | none => exact absurd hc List.not_mem_nil
  | some n =>
    rcases List.mem_cons.mp hc with rfl | hc
    · exact ⟨by decide, by decide, by decide⟩
    · exact isInner_of_isDigit (Nat.isDigit_of_mem_toDigits (by decide) (by decide) hc)

theorem IsHost.isInner_append {h : List Char} (hh : IsHost h) (port : Option ℕ) :
    ∀ c ∈ h ++ portText port, IsInner c :=
  List.forall_mem_append.mpr ⟨hh.isInner, isInner_portText⟩

/-- A host with a port that is not the default one. -/
theorem readAuthority_eq {host : HostParser} {scheme : Scheme} {h : List Char} {port : Option ℕ}
    (hh : IsHost h) (hhost : host h = some h)
    (hport : ∀ n ∈ port, n ≤ 65535 ∧ n ≠ scheme.defaultPort) :
    readAuthority host scheme (h ++ portText port) = some (h, port) := by
  have hsplit : splitPort false (h ++ portText port)
      = (h, (splitPort false (portText port)).2) := by
    rw [hh.splitPort_eq]
    cases port with
    | none => simp [portText, splitPort]
    | some n => simp [portText, splitPort]
  have hat : (h ++ portText port).contains '@' = false := by
    rw [List.contains_eq_mem, decide_eq_false_iff_not]
    exact fun hmem => (hh.isInner_append port _ hmem).notAt rfl
  rw [readAuthority, hsplit, hat, Bool.false_or, if_neg, hhost, readPort_portText hport]
  · rfl
  · rw [List.isEmpty_iff]
    exact hh.ne_nil

theorem HostParser.Documented.readAuthority_eq_some {host : HostParser} (hdoc : host.Documented)
    {scheme : Scheme} {l h : List Char} {port : Option ℕ}
    (hread : readAuthority host scheme l = some (h, port)) :
    IsHost h ∧ host h = some h ∧ ∀ n ∈ port, n ≤ 65535 ∧ n ≠ scheme.defaultPort := by
  rw [readAuthority] at hread
  split at hread
  · exact absurd hread (by simp)
  · obtain ⟨h', hhost, hread⟩ := Option.bind_eq_some_iff.mp hread
    obtain ⟨port', hport, heq⟩ := Option.map_eq_some_iff.mp hread
    obtain ⟨rfl, rfl⟩ := Prod.mk.inj heq
    exact ⟨hdoc.isHost _ _ hhost, hdoc.reparse _ _ hhost, readPort_eq_some hport⟩

/-! ### The round trip -/

/-- A URL as the parser gives it. -/
structure Url.WellFormed (host : HostParser) (url : Url) : Prop where
  isHost : IsHost url.host
  host_eq : host url.host = some url.host
  port : ∀ n ∈ url.port, n ≤ 65535 ∧ n ≠ url.scheme.defaultPort
  path_ne_nil : url.path ≠ []
  path : ∀ segment ∈ url.path, IsSegment segment
  query : ∀ query ∈ url.query, ∀ c ∈ query, specialQuerySet c = false
  fragment : ∀ fragment ∈ url.fragment, ∀ c ∈ fragment, fragmentSet c = false

theorem isBlank_eq_false {c : Char} (hcontrol : controlSet c = false) (hspace : c ≠ ' ') :
    isBlank c = false := by
  have hle := of_decide_eq_false (Bool.or_eq_false_iff.mp hcontrol).1
  have hne : c.toNat ≠ 32 := fun heq => hspace (Char.toNat_inj.mp heq)
  exact decide_eq_false (by omega)

theorem contains_eq_false {l : List Char} {c : Char} (h : l.contains c = false) :
    ∀ d ∈ l, c ≠ d := by
  rintro d hd rfl
  rw [List.contains_eq_mem, decide_eq_false_iff_not] at h
  exact h hd

theorem isBlank_of_querySet {c : Char} (h : querySet c = false) : isBlank c = false := by
  obtain ⟨hcontrol, hset⟩ := Bool.or_eq_false_iff.mp h
  exact isBlank_eq_false hcontrol (contains_eq_false hset ' ' (by simp))

theorem isPathEnd_of_pathSet {c : Char} (h : pathSet c = false) : isPathEnd c = false := by
  obtain ⟨hquery, hset⟩ := Bool.or_eq_false_iff.mp h
  have hmark := contains_eq_false hset '?' (by simp)
  have hhash := contains_eq_false (Bool.or_eq_false_iff.mp hquery).2 '#' (by simp)
  rw [isPathEnd, Bool.or_eq_false_iff]
  exact ⟨decide_eq_false hmark, decide_eq_false hhash⟩

theorem isBlank_of_fragmentSet {c : Char} (h : fragmentSet c = false) : isBlank c = false := by
  obtain ⟨hcontrol, hset⟩ := Bool.or_eq_false_iff.mp h
  exact isBlank_eq_false hcontrol (contains_eq_false hset ' ' (by simp))

theorem ne_hash_of_specialQuerySet {c : Char} (h : specialQuerySet c = false) : c ≠ '#' :=
  contains_eq_false (Bool.or_eq_false_iff.mp (Bool.or_eq_false_iff.mp h).1).2 '#' (by simp)

theorem ne_hash_of_isPathEnd {c : Char} (h : isPathEnd c = false) : c ≠ '#' :=
  of_decide_eq_false (Bool.or_eq_false_iff.mp h).2

theorem mem_pathText {path : List (List Char)} {c : Char} (h : c ∈ pathText path) :
    c = '/' ∨ ∃ segment ∈ path, c ∈ segment := by
  obtain ⟨segment, hmem, hc⟩ := List.mem_flatMap.mp h
  rcases List.mem_cons.mp hc with rfl | hc
  · exact .inl rfl
  · exact .inr ⟨segment, hmem, hc⟩

section RoundTrip

variable {host : HostParser} {url : Url} (h : url.WellFormed host)

include h

theorem Url.WellFormed.pathText_kept : ∀ c ∈ pathText url.path,
    isBlank c = false ∧ isPathEnd c = false := by
  intro c hc
  rcases mem_pathText hc with rfl | ⟨segment, hmem, hc⟩
  · exact ⟨by decide, by decide⟩
  · have hset := (h.path segment hmem).kept c hc
    exact ⟨isBlank_of_querySet (Bool.or_eq_false_iff.mp hset).1, isPathEnd_of_pathSet hset⟩

theorem Url.WellFormed.queryText_kept : ∀ c ∈ queryText url.query,
    isBlank c = false ∧ c ≠ '#' := by
  intro c hc
  cases hquery : url.query with
  | none =>
    rw [hquery] at hc
    exact absurd hc List.not_mem_nil
  | some query =>
    rw [hquery] at hc
    rcases List.mem_cons.mp hc with rfl | hc
    · exact ⟨by decide, by decide⟩
    · have hset := h.query query hquery c hc
      exact ⟨isBlank_of_querySet (Bool.or_eq_false_iff.mp hset).1, ne_hash_of_specialQuerySet hset⟩

theorem Url.WellFormed.fragmentText_kept : ∀ c ∈ fragmentText url.fragment,
    isBlank c = false := by
  intro c hc
  cases hfragment : url.fragment with
  | none =>
    rw [hfragment] at hc
    exact absurd hc List.not_mem_nil
  | some fragment =>
    rw [hfragment] at hc
    rcases List.mem_cons.mp hc with rfl | hc
    · decide
    · exact isBlank_of_fragmentSet (h.fragment fragment hfragment c hc)

theorem Url.WellFormed.readQuery_eq :
    readQuery (queryText url.query ++ fragmentText url.fragment) = url.query := by
  have hkept := h.query
  cases hquery : url.query with
  | none => cases url.fragment <;> rfl
  | some query =>
    have htake := (Numeral.span_append (p := fun c => c ≠ '#') (l := query)
      (r := fragmentText url.fragment)
      (fun c hc => decide_eq_true (ne_hash_of_specialQuerySet (hkept query hquery c hc)))
      (by cases url.fragment <;> simp [fragmentText])).1
    show some (encode specialQuerySet (List.takeWhile _ (query ++ _))) = _
    rw [htake, encode_eq_self (hkept query hquery)]

theorem Url.WellFormed.readFragment_eq :
    readFragment (fragmentText url.fragment) = url.fragment := by
  cases hfragment : url.fragment with
  | none => rfl
  | some fragment =>
    show some (encode fragmentSet fragment) = _
    rw [encode_eq_self (h.fragment fragment hfragment)]

/-- What is after the authority is read back. -/
theorem Url.WellFormed.readAfter_eq :
    readAfter url.scheme (url.host, url.port)
      (pathText url.path ++ (queryText url.query ++ fragmentText url.fragment)) = url := by
  obtain ⟨htake, hdrop⟩ := Numeral.span_append (p := fun c => !isPathEnd c)
    (l := pathText url.path) (r := queryText url.query ++ fragmentText url.fragment)
    (fun c hc => by rw [(h.pathText_kept c hc).2]; rfl)
    (by cases url.query <;> cases url.fragment <;> simp [queryText, fragmentText, isPathEnd])
  have hfragment := (Numeral.span_append (p := fun c => c ≠ '#')
    (l := pathText url.path ++ queryText url.query) (r := fragmentText url.fragment)
    (List.forall_mem_append.mpr ⟨fun c hc => decide_eq_true (ne_hash_of_isPathEnd
      (h.pathText_kept c hc).2), fun c hc => decide_eq_true (h.queryText_kept c hc).2⟩)
    (by cases url.fragment <;> simp [fragmentText])).2
  rw [List.append_assoc] at hfragment
  rw [readAfter, htake, hdrop, hfragment, readPath_pathText h.path_ne_nil h.path, h.readQuery_eq,
    h.readFragment_eq]

/-- **A URL that is written is read back.** -/
theorem Url.WellFormed.parse_serialize : parse host (serialize url) = some url := by
  have htext : serialize url = url.scheme.text ++ ':' :: '/' :: '/' ::
      (url.host ++ portText url.port ++
        (pathText url.path ++ (queryText url.query ++ fragmentText url.fragment))) := by
    simp only [serialize, List.append_assoc, List.cons_append, List.nil_append]
  have hlower : url.scheme.text.map Char.toLower = url.scheme.text := by
    cases url.scheme <;> decide
  rw [htext, parse_append hlower, readRest_append, readAuthority_eq h.isHost h.host_eq h.port,
    Option.map_some, h.readAfter_eq]
  · exact fun c hc => (h.isHost.isInner_append _ c hc).notEnd
  · cases hpath : url.path with
    | nil => exact absurd hpath h.path_ne_nil
    | cons segment path =>
      intro c hc
      obtain rfl : '/' = c := Option.some_inj.mp hc
      decide
  · simp only [List.forall_mem_append]
    refine ⟨⟨fun c hc => ?_, fun c hc => ?_⟩, fun c hc => ?_, fun c hc => ?_,
      h.fragmentText_kept⟩
    · exact (h.isHost.isInner c hc).notBlank
    · exact (isInner_portText c hc).notBlank
    · exact (h.pathText_kept c hc).1
    · exact (h.queryText_kept c hc).1
  · cases hhost : url.host with
    | nil => exact absurd hhost h.isHost.ne_nil
    | cons d l =>
      intro c hc
      obtain rfl : d = c := Option.some_inj.mp hc
      have hend := (h.isHost.isInner d (hhost ▸ List.mem_cons_self)).notEnd
      exact (Bool.or_eq_false_iff.mp hend).1

end RoundTrip

end WebUrl
