/-
The URLs of requests and of streams (`api/client.ts`).

`wsUrl` reads the base as a URL, `apiUrl` appends to it as a text.  The server
takes the agent of a stream from the query (`hub.go`).

* `AbsoluteUrl` — a base with any host, port, path prefix and slashes at its end;
* `parse_trimmed` — what a text made from such a base is read as;
* `queryGet_search` — the server reads the ID that was put into the query;
* `SameServer` — the URL of a stream is that of a request with another scheme and
  a query;
* `addressesSame_iff` — this is so exactly when there is no path prefix.
-/
import Volta.DashboardStores
import Volta.WebUrl

namespace Volta

namespace Dashboard

open PercentEncoding WebUrl

/-- The characters that `encodeURIComponent` keeps. -/
def isUnreserved (c : Char) : Bool :=
  c.isAlphanum || ['-', '_', '.', '!', '~', '*', '\'', '(', ')'].contains c

def encodeURIComponent (s : String) : List Char := encode (fun c => !isUnreserved c) s.toList

/-- The scheme of a stream. -/
def streamScheme (scheme : Scheme) : Scheme := if scheme = .https then .wss else .ws

/-- `none` is an error of `new URL`; `locationOrigin` is `window.location.origin`. -/
def wsUrl (host : HostParser) (locationOrigin baseUrl agentId : String) : Option String :=
  let trimmed := trimTrailingSlash baseUrl
  let origin := if trimmed = "" then locationOrigin else trimmed
  (parse host origin.toList).map fun url =>
    let url := setProtocol url (streamScheme url.scheme)
    -- the path prefix of the base ends here
    let url := setPathname url ['/', 'w', 's']
    let url := setSearch url ("agent_id=".toList ++ encodeURIComponent agentId)
    String.ofList (serialize url)

/-- A key or a value of a query. -/
def decodeForm (l : List Char) : Option (List Char) :=
  decodeText (l.map fun c => if c = '+' then ' ' else c)

/-- `Query().Get` of the server. -/
def queryGet (name query : List Char) : Option (List Char) :=
  ((query.splitOn '&').find? fun pair =>
    decodeForm (pair.takeWhile fun c => c ≠ '=') = some name).bind fun pair =>
      decodeForm ((pair.dropWhile fun c => c ≠ '=').drop 1)

/-- The URL of a stream is that of a request at `/ws`, with the scheme of a stream
and a query from which the server reads the agent. -/
structure SameServer (request stream : Url) (agentId : String) : Prop where
  eq : stream = { request with scheme := streamScheme request.scheme, query := stream.query }
  agent : stream.query.bind (queryGet "agent_id".toList) = some agentId.toList

/-- A base with the scheme `http` or `https`, without a query or a fragment. -/
structure AbsoluteUrl where
  scheme : Scheme
  schemeText : List Char
  scheme_eq : schemeText.map Char.toLower = scheme.text
  isHttp : scheme = .http ∨ scheme = .https
  authority : List Char
  authority_ne_nil : authority ≠ []
  authority_kept : ∀ c ∈ authority, isBlank c = false ∧ isAuthorityEnd c = false
  /-- The path prefix, with any slashes at its end. -/
  path : List Char
  path_head : ∀ c ∈ path.head?, isSlash c = true
  path_kept : ∀ c ∈ path, isBlank c = false ∧ isPathEnd c = false

namespace AbsoluteUrl

def text (b : AbsoluteUrl) : String :=
  String.ofList (b.schemeText ++ ':' :: '/' :: '/' :: (b.authority ++ b.path))

/-- The path prefix without the slashes at its end. -/
def trimmedPath (b : AbsoluteUrl) : List Char := b.path.rdropWhile fun c => c = '/'

/-- The segments of the path prefix, with `.` and `..` resolved. -/
def pathPrefix (b : AbsoluteUrl) : List (List Char) :=
  if b.trimmedPath = [] then []
  else (segments (dropSlash b.trimmedPath)).foldl pushSegment []

end AbsoluteUrl

/-- The URL of a request at `/ws` and that of the stream, if both can be read, are
of the same server. -/
def AddressesSame (host : HostParser) (locationOrigin base agentId : String) : Prop :=
  ∃ request stream, parse host (apiUrl base "/ws").toList = some request ∧
    (wsUrl host locationOrigin base agentId).bind (fun s => parse host s.toList) = some stream ∧
    SameServer request stream agentId

/-! ### Requests -/

theorem rdropWhile_append {p : Char → Bool} {l : List Char} (hl : l.rdropWhile p = l)
    (m : List Char) : (l ++ m).rdropWhile p = l ++ m.rdropWhile p := by
  induction m using List.reverseRecOn with
  | nil => rw [List.append_nil, hl, List.rdropWhile_nil, List.append_nil]
  | append_singleton m c ih =>
    rw [← List.append_assoc, List.rdropWhile_concat, List.rdropWhile_concat, ih]
    split
    · rfl
    · rw [List.append_assoc]

theorem toList_trimTrailingSlash (b : AbsoluteUrl) : (trimTrailingSlash b.text).toList
    = b.schemeText ++ ':' :: '/' :: '/' :: (b.authority ++ b.trimmedPath) := by
  have hlast : (b.schemeText ++ ':' :: '/' :: '/' :: b.authority).rdropWhile (fun c => c = '/')
      = b.schemeText ++ ':' :: '/' :: '/' :: b.authority := by
    obtain ⟨a, c, ha⟩ := (List.eq_nil_or_concat' b.authority).resolve_left b.authority_ne_nil
    have hc : c ≠ '/' := by
      have hend := (b.authority_kept c (by simp [ha])).2
      rintro rfl
      exact absurd hend (by decide)
    have hconcat : b.schemeText ++ ':' :: '/' :: '/' :: b.authority
        = (b.schemeText ++ ':' :: '/' :: '/' :: a) ++ [c] := by simp [ha]
    rw [hconcat, List.rdropWhile_concat_neg _ _ _ (by simpa using hc)]
  have hsplit : b.schemeText ++ ':' :: '/' :: '/' :: (b.authority ++ b.path)
      = (b.schemeText ++ ':' :: '/' :: '/' :: b.authority) ++ b.path := by
    simp only [List.append_assoc, List.cons_append]
  rw [trimTrailingSlash, AbsoluteUrl.text, String.toList_ofList, String.toList_ofList, hsplit,
    rdropWhile_append hlast, AbsoluteUrl.trimmedPath]
  simp only [List.append_assoc, List.cons_append]

theorem AbsoluteUrl.trimmedPath_kept (b : AbsoluteUrl) :
    ∀ c ∈ b.trimmedPath, isBlank c = false ∧ isPathEnd c = false := by
  intro c hc
  exact b.path_kept c ((List.rdropWhile_prefix _ _).subset hc)

theorem AbsoluteUrl.trimmedPath_head (b : AbsoluteUrl) :
    ∀ c ∈ b.trimmedPath.head?, isSlash c = true := by
  intro c hc
  refine b.path_head c ?_
  obtain ⟨r, hr⟩ := List.rdropWhile_prefix (fun c => c = '/') b.path
  rw [← hr, List.head?_append, Option.mem_def, show (List.rdropWhile _ _).head? = _ from hc]
  rfl

/-- What a text made from the base is read as. -/
theorem parse_trimmed {host : HostParser} (b : AbsoluteUrl) {suffix : List Char}
    (hhead : ∀ c ∈ suffix.head?, c = '/')
    (hsuffix : ∀ c ∈ suffix, isBlank c = false ∧ isPathEnd c = false) :
    parse host ((trimTrailingSlash b.text).toList ++ suffix)
      = (readAuthority host b.scheme b.authority).map fun authority =>
          { scheme := b.scheme, host := authority.1, port := authority.2
            path := readPath (b.trimmedPath ++ suffix) } := by
  have htext : (trimTrailingSlash b.text).toList ++ suffix
      = b.schemeText ++ ':' :: '/' :: '/' :: (b.authority ++ (b.trimmedPath ++ suffix)) := by
    rw [toList_trimTrailingSlash]
    simp only [List.append_assoc, List.cons_append]
  have hkept : ∀ c ∈ b.trimmedPath ++ suffix, isBlank c = false ∧ isPathEnd c = false :=
    List.forall_mem_append.mpr ⟨b.trimmedPath_kept, hsuffix⟩
  have hpath : (b.trimmedPath ++ suffix).takeWhile (fun c => !isPathEnd c)
      = b.trimmedPath ++ suffix := by
    rw [List.takeWhile_eq_self_iff]
    intro c hc
    rw [(hkept c hc).2]
    rfl
  have hquery : (b.trimmedPath ++ suffix).dropWhile (fun c => !isPathEnd c) = [] := by
    rw [List.dropWhile_eq_nil_iff]
    intro c hc
    rw [(hkept c hc).2]
    rfl
  have hfragment : (b.trimmedPath ++ suffix).dropWhile (fun c => c ≠ '#') = [] := by
    rw [List.dropWhile_eq_nil_iff]
    intro c hc
    exact decide_eq_true (ne_hash_of_isPathEnd (hkept c hc).2)
  rw [htext, parse_append b.scheme_eq, readRest_append]
  · refine congrArg (fun f => Option.map f _) (funext fun authority => ?_)
    rw [readAfter, hpath, hquery, hfragment]
    rfl
  · exact fun c hc => (b.authority_kept c hc).2
  · intro c hc
    rw [isAuthorityEnd, Bool.or_eq_true_iff]
    left
    rw [List.head?_append] at hc
    cases htrimmed : b.trimmedPath.head? with
    | none =>
      rw [htrimmed] at hc
      rw [hhead c hc]
      rfl
    | some d =>
      rw [htrimmed] at hc
      obtain rfl : d = c := Option.some_inj.mp hc
      exact b.trimmedPath_head d htrimmed
  · refine List.forall_mem_append.mpr ⟨fun c hc => (b.authority_kept c hc).1, ?_⟩
    exact fun c hc => (hkept c hc).1
  · intro c hc
    rw [List.head?_append_of_ne_nil _ b.authority_ne_nil] at hc
    have hend := (b.authority_kept c (List.mem_of_mem_head? hc)).2
    exact (Bool.or_eq_false_iff.mp hend).1

theorem isSegment_ws : IsSegment ['w', 's'] := by
  refine ⟨?_, ?_, by decide, by decide⟩
  · simp [isSlash]
  · simp [pathSet, querySet, controlSet]

/-- `/ws` comes after the path prefix. -/
theorem readPath_trimmedPath (b : AbsoluteUrl) :
    readPath (b.trimmedPath ++ ['/', 'w', 's']) = b.pathPrefix ++ [['w', 's']] := by
  rw [AbsoluteUrl.pathPrefix]
  split
  · rename_i hnil
    rw [hnil]
    decide
  · rename_i hne
    exact readPath_append isSegment_ws hne

/-! ### The query -/

/-- What is escaped in the end: `search` escapes apostrophes as well. -/
def searchSet (c : Char) : Bool := !isUnreserved c || specialQuerySet c

theorem keeps_specialQuerySet : Keeps specialQuerySet where
  percent := by decide
  hexDigit n hn := by interval_cases n <;> decide

theorem decodeForm_eq {l : List Char} (h : '+' ∉ l) : decodeForm l = decodeText l := by
  have hself : (l.map fun c => if c = '+' then ' ' else c) = l := by
    refine (List.map_congr_left fun c hc => ?_).trans (List.map_id l)
    exact if_neg (ne_of_mem_of_not_mem hc h)
  rw [decodeForm, hself]

theorem decodeForm_search (l : List Char) : decodeForm (encode searchSet l) = some l := by
  rw [decodeForm_eq (notMem_encode (by decide) (by decide) (by decide) l)]
  exact decodeText_encode (by decide) l

theorem toList_agentId : "agent_id".toList = ['a', 'g', 'e', 'n', 't', '_', 'i', 'd'] := rfl

theorem toList_agentIdEq : "agent_id=".toList = "agent_id".toList ++ ['='] := rfl

theorem decodeForm_agentId : decodeForm "agent_id".toList = some "agent_id".toList := by
  have hkept : encode (fun c => decide (c = '%')) "agent_id".toList = "agent_id".toList := by
    refine encode_eq_self ?_
    rw [toList_agentId]
    simp
  have hplus : '+' ∉ "agent_id".toList := by
    rw [toList_agentId]
    decide
  rw [decodeForm_eq hplus, ← hkept]
  exact decodeText_encode (by decide) _

/-- The query of the URL of a stream. -/
theorem query_setSearch (url : Url) (agentId : String) :
    setSearch url ("agent_id=".toList ++ encodeURIComponent agentId)
      = { url with query := some ("agent_id=".toList ++ encode searchSet agentId.toList) } := by
  have htab : ∀ c ∈ "agent_id=".toList ++ encodeURIComponent agentId,
      isTabOrNewline c = false := by
    refine List.forall_mem_append.mpr ⟨?_, fun c hc => ?_⟩
    · rw [toList_agentIdEq, toList_agentId]
      simp [isTabOrNewline]
    · by_contra htab
      rw [Bool.not_eq_false] at htab
      have hcode := of_decide_eq_true htab
      simp only [List.mem_cons, List.not_mem_nil, or_false] at hcode
      rcases hcode with h | h | h
      · obtain rfl : c = '\t' := Char.toNat_inj.mp h
        exact notMem_encode (by decide) (by decide) (by decide) _ hc
      · obtain rfl : c = '\n' := Char.toNat_inj.mp h
        exact notMem_encode (by decide) (by decide) (by decide) _ hc
      · obtain rfl : c = '\r' := Char.toNat_inj.mp h
        exact notMem_encode (by decide) (by decide) (by decide) _ hc
  have hkey : encode specialQuerySet "agent_id=".toList = "agent_id=".toList := by
    refine encode_eq_self ?_
    rw [toList_agentIdEq, toList_agentId]
    simp [specialQuerySet, querySet, controlSet]
  have hquery : encode specialQuerySet ("agent_id=".toList ++ encodeURIComponent agentId)
      = "agent_id=".toList ++ encode searchSet agentId.toList := by
    rw [encode_append, hkey, encodeURIComponent, encode_encode keeps_specialQuerySet]
    rfl
  rw [toList_agentIdEq, toList_agentId] at htab hquery ⊢
  rw [← hquery]
  exact setSearch_eq (by decide) htab

/-- The server reads the ID that was put into the query, whatever it is. -/
theorem queryGet_search (l : List Char) :
    queryGet "agent_id".toList ("agent_id=".toList ++ encode searchSet l) = some l := by
  have hamp : '&' ∉ "agent_id=".toList ++ encode searchSet l := by
    rw [List.mem_append, not_or]
    refine ⟨?_, notMem_encode (by decide) (by decide) (by decide) l⟩
    rw [toList_agentIdEq, toList_agentId]
    decide
  have htext : "agent_id=".toList ++ encode searchSet l
      = "agent_id".toList ++ '=' :: encode searchSet l := by
    rw [toList_agentIdEq, List.append_assoc]
    rfl
  obtain ⟨htake, hdrop⟩ := Numeral.span_append (p := fun c => c ≠ '=') (l := "agent_id".toList)
    (r := '=' :: encode searchSet l) (by rw [toList_agentId]; simp) (by simp)
  rw [queryGet, List.splitOn_eq_singleton hamp, htext, List.find?_singleton, htake,
    decodeForm_agentId, if_pos (decide_eq_true rfl), Option.bind_some, hdrop]
  exact decodeForm_search l

/-! ### The server -/

section Server

variable {host : HostParser} (hdoc : host.Documented) (b : AbsoluteUrl)

/-- The URL of a request at `/ws`. -/
def requestUrl (b : AbsoluteUrl) (authority : List Char × Option ℕ) : Url where
  scheme := b.scheme
  host := authority.1
  port := authority.2
  path := b.pathPrefix ++ [['w', 's']]

/-- The URL of a stream, which has lost the path prefix. -/
def streamUrl (b : AbsoluteUrl) (authority : List Char × Option ℕ) (agentId : String) : Url where
  scheme := streamScheme b.scheme
  host := authority.1
  port := authority.2
  path := [['w', 's']]
  query := some ("agent_id=".toList ++ encode searchSet agentId.toList)

theorem parse_request : parse host (apiUrl b.text "/ws").toList
    = (readAuthority host b.scheme b.authority).map (requestUrl b) := by
  have htext : (apiUrl b.text "/ws").toList
      = (trimTrailingSlash b.text).toList ++ ['/', 'w', 's'] := by
    rw [apiUrl, String.toList_append]
    rfl
  rw [htext, parse_trimmed b (by simp) (by simp [isBlank, isPathEnd]), readPath_trimmedPath]
  rfl

/-- `connect` depends on the host and the port. -/
theorem isSome_parse_agentsUrl : (parse host (agentsUrl b.text).toList).isSome ↔
    ∃ authority, readAuthority host b.scheme b.authority = some authority := by
  have htext : (agentsUrl b.text).toList
      = (trimTrailingSlash b.text).toList ++ "/api/agents".toList := by
    rw [agentsUrl, apiUrl, String.toList_append]
  have hlist : "/api/agents".toList
      = ['/', 'a', 'p', 'i', '/', 'a', 'g', 'e', 'n', 't', 's'] := rfl
  rw [htext, hlist, parse_trimmed b (by simp) (by simp [isBlank, isPathEnd]),
    Option.isSome_map, Option.isSome_iff_exists]

theorem defaultPort_streamScheme : (streamScheme b.scheme).defaultPort = b.scheme.defaultPort := by
  rcases b.isHttp with h | h
  · rw [h]
    rfl
  · rw [h]
    rfl

include hdoc

theorem wsUrl_eq {authority : List Char × Option ℕ}
    (hread : readAuthority host b.scheme b.authority = some authority)
    (locationOrigin agentId : String) :
    wsUrl host locationOrigin b.text agentId
      = some (String.ofList (serialize (streamUrl b authority agentId))) := by
  have hne : trimTrailingSlash b.text ≠ "" := by
    intro heq
    have hlist := toList_trimTrailingSlash b
    rw [heq] at hlist
    exact absurd hlist (by simp)
  have hparse : parse host ((trimTrailingSlash b.text).toList ++ []) = _ :=
    parse_trimmed b (by simp) (by simp)
  rw [List.append_nil, hread, Option.map_some] at hparse
  have hport : authority.2 ≠ some (streamScheme b.scheme).defaultPort := by
    -- `ws` and `wss` have the default ports of `http` and `https`
    intro heq
    rw [defaultPort_streamScheme] at heq
    exact ((hdoc.readAuthority_eq_some hread).2.2 _ heq).2 rfl
  have hpath (url : Url) : setPathname url ['/', 'w', 's'] = { url with path := [['w', 's']] } :=
    setPathname_eq (by simp) (List.forall_mem_singleton.mpr isSegment_ws)
      (by simp [pathText, isTabOrNewline])
  rw [wsUrl]
  dsimp only
  rw [if_neg hne, hparse, Option.map_some, query_setSearch, hpath, setProtocol]
  dsimp only
  rw [if_neg hport, streamUrl]

theorem wellFormed_streamUrl {authority : List Char × Option ℕ}
    (hread : readAuthority host b.scheme b.authority = some authority) (agentId : String) :
    (streamUrl b authority agentId).WellFormed host := by
  obtain ⟨hhost, hself, hport⟩ := hdoc.readAuthority_eq_some hread
  refine ⟨hhost, hself, ?_, by simp [streamUrl], ?_, ?_, by simp [streamUrl]⟩
  · intro n hn
    show n ≤ 65535 ∧ n ≠ (streamScheme b.scheme).defaultPort
    rw [defaultPort_streamScheme]
    exact hport n hn
  · exact List.forall_mem_singleton.mpr isSegment_ws
  · intro query hquery
    obtain rfl := Option.some_inj.mp hquery
    refine List.forall_mem_append.mpr ⟨?_, fun c hc => ?_⟩
    · rw [toList_agentIdEq, toList_agentId]
      simp [specialQuerySet, querySet, controlSet]
    · refine keeps_specialQuerySet.of_mem_encode (l := encode (fun c => !isUnreserved c)
        agentId.toList) ?_
      rw [encode_encode keeps_specialQuerySet]
      exact hc

/-- Both URLs can be read, and only their paths may differ. -/
theorem addressesSame_iff_eq {authority : List Char × Option ℕ}
    (hread : readAuthority host b.scheme b.authority = some authority)
    (locationOrigin agentId : String) :
    AddressesSame host locationOrigin b.text agentId ↔
      SameServer (requestUrl b authority) (streamUrl b authority agentId) agentId := by
  have hrequest : parse host (apiUrl b.text "/ws").toList = some (requestUrl b authority) := by
    rw [parse_request, hread, Option.map_some]
  have hstream : (wsUrl host locationOrigin b.text agentId).bind (fun s => parse host s.toList)
      = some (streamUrl b authority agentId) := by
    rw [wsUrl_eq hdoc b hread, Option.bind_some, String.toList_ofList]
    exact (wellFormed_streamUrl hdoc b hread agentId).parse_serialize
  constructor
  · rintro ⟨request, stream, hrequest', hstream', hsame⟩
    obtain rfl := Option.some_inj.mp (hrequest.symm.trans hrequest')
    obtain rfl := Option.some_inj.mp (hstream.symm.trans hstream')
    exact hsame
  · intro hsame
    exact ⟨_, _, hrequest, hstream, hsame⟩

end Server

theorem sameServer_iff (b : AbsoluteUrl) (authority : List Char × Option ℕ) (agentId : String) :
    SameServer (requestUrl b authority) (streamUrl b authority agentId) agentId ↔
      b.pathPrefix = [] := by
  constructor
  · intro h
    have hpath : [['w', 's']] = b.pathPrefix ++ [['w', 's']] := congrArg Url.path h.eq
    simpa using hpath
  · intro hprefix
    refine ⟨?_, queryGet_search agentId.toList⟩
    rw [streamUrl, requestUrl, hprefix]
    rfl

/-- **When requests and streams go to the same server.**  For every base with which
`connect` succeeds and every agent: the URL of the stream is the one of a request
at `/ws`, with the scheme of a stream and a query that gives the ID back, exactly
when the base has no path prefix. -/
theorem addressesSame_iff {host : HostParser} (hdoc : host.Documented) (b : AbsoluteUrl)
    (hconnect : (parse host (agentsUrl b.text).toList).isSome) (locationOrigin agentId : String) :
    AddressesSame host locationOrigin b.text agentId ↔ b.pathPrefix = [] := by
  obtain ⟨authority, hread⟩ := (isSome_parse_agentsUrl b).mp hconnect
  rw [addressesSame_iff_eq hdoc b hread, sameServer_iff]

/-- Names of small letters are hosts as they are. -/
def nameHost : HostParser := fun l =>
  if l ≠ [] && l.all (fun c => 97 ≤ c.toNat && c.toNat ≤ 122) then some l else none

theorem documented_nameHost : nameHost.Documented := by
  have hname : ∀ l h, nameHost l = some h → l = h ∧ h ≠ [] ∧
      ∀ c ∈ h, 97 ≤ c.toNat ∧ c.toNat ≤ 122 := by
    intro l h hl
    rw [nameHost, Option.ite_none_right_eq_some, Bool.and_eq_true_iff] at hl
    obtain ⟨⟨hne, hall⟩, heq⟩ := hl
    obtain rfl := Option.some_inj.mp heq
    refine ⟨rfl, of_decide_eq_true hne, fun c hc => ?_⟩
    simpa using List.all_eq_true.mp hall c hc
  constructor
  · intro l h hl
    obtain ⟨-, hne, hletter⟩ := hname l h hl
    have hcode : ∀ c ∈ h, ∀ d : Char, d.toNat < 97 → c ≠ d := by
      rintro c hc d hd rfl
      have hle := (hletter c hc).1
      omega
    refine ⟨hne, fun c hc => ⟨?_, ?_, hcode c hc '@' (by decide)⟩, .inl fun c hc => ?_⟩
    · have hle := (hletter c hc).1
      exact decide_eq_false (by omega)
    · simp only [isAuthorityEnd, isSlash, isPathEnd, Bool.or_eq_false_iff, decide_eq_false_iff_not]
      exact ⟨⟨hcode c hc '/' (by decide), hcode c hc '\\' (by decide)⟩,
        hcode c hc '?' (by decide), hcode c hc '#' (by decide)⟩
    · exact ⟨hcode c hc ':' (by decide), hcode c hc '[' (by decide), hcode c hc ']' (by decide)⟩
  · intro l h hl
    obtain ⟨rfl, -⟩ := hname l h hl
    exact hl

/-- A base on the machine itself, with the given text after it. -/
def localhost (path : List Char) (hhead : ∀ c ∈ path.head?, isSlash c = true)
    (hkept : ∀ c ∈ path, isBlank c = false ∧ isPathEnd c = false) : AbsoluteUrl where
  scheme := .http
  schemeText := ['h', 't', 't', 'p']
  scheme_eq := by decide
  isHttp := .inl rfl
  authority := ['l', 'o', 'c', 'a', 'l', 'h', 'o', 's', 't', ':', '8', '0', '8', '0']
  authority_ne_nil := by simp
  authority_kept := by simp [isBlank, isAuthorityEnd, isSlash, isPathEnd]
  path := path
  path_head := hhead
  path_kept := hkept

theorem readAuthority_localhost : readAuthority nameHost .http
    ['l', 'o', 'c', 'a', 'l', 'h', 'o', 's', 't', ':', '8', '0', '8', '0']
      = some (['l', 'o', 'c', 'a', 'l', 'h', 'o', 's', 't'], some 8080) := by
  decide +kernel

/-- Slashes at the end are no prefix. -/
theorem addressesSame_localhost :
    AddressesSame nameHost "" "http://localhost:8080//" "a b&c" := by
  let b := localhost ['/', '/'] (by simp [isSlash]) (by simp [isBlank, isPathEnd])
  have htext : b.text = "http://localhost:8080//" := by decide +kernel
  have hconnect : (parse nameHost (agentsUrl b.text).toList).isSome :=
    (isSome_parse_agentsUrl b).mpr ⟨_, readAuthority_localhost⟩
  rw [← htext]
  exact (addressesSame_iff documented_nameHost b hconnect "" "a b&c").mpr (by decide +kernel)

/-- The stream of `http://localhost:8080/volta` is at `ws://localhost:8080/ws`. -/
theorem prefix_lost :
    ¬ ∀ (host : HostParser) (b : AbsoluteUrl) (locationOrigin agentId : String),
      host.Documented → (parse host (agentsUrl b.text).toList).isSome →
        AddressesSame host locationOrigin b.text agentId := by
  intro hall
  let b := localhost ['/', 'v', 'o', 'l', 't', 'a'] (by simp [isSlash])
    (by simp [isBlank, isPathEnd])
  have hsame := hall nameHost b "" "a" documented_nameHost
    ((isSome_parse_agentsUrl b).mpr ⟨_, readAuthority_localhost⟩)
  rw [addressesSame_iff_eq documented_nameHost b readAuthority_localhost, sameServer_iff] at hsame
  exact absurd hsame (by decide +kernel)

end Dashboard
end Volta
