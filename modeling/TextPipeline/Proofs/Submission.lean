import TextPipeline.Proofs.Execution
import TextPipeline.Proofs.Settings.Load

/-!
# Submitting scripts

A script is sent to an address that is made from the endpoint of the settings, in a body that means
an object with the script as its only member.  Whatever characters the script has, the service
reads the script itself, and whatever characters an output has, a successful answer with it is taken
for this output.

The address is told by the endpoint without the slashes at its end.  It keeps the scheme of the
endpoint if something else than slashes stands behind the scheme.  Settings with an endpoint that is
a scheme and nothing else are usable all the same, and then the slashes of the scheme are lost.
-/

namespace TextPipeline

namespace Execution

/-! ### The address -/

variable {scheme rest : String}

/-- A text of slashes. -/
def slashes (n : Nat) : String :=
  String.ofList (List.replicate n '/')

/-- The characters of an address. -/
theorem toList_url (endpoint : String) :
  (url endpoint).toList = dropEndWhile (· = '/') endpoint.toList ++ "/execute".toList
  := by
  rw [url, String.toList_append, String.toList_ofList]

/-- An address is what is left of the endpoint, which ends in no slash, and a slash and a word. -/
theorem exists_url_eq (endpoint : String) :
  ∃ front : String, url endpoint = front ++ "/execute" ∧ '/' ∉ front.toList.getLast?
  := by
  use String.ofList (dropEndWhile (· = '/') endpoint.toList), rfl
  rw [String.toList_ofList]
  intro hslash
  have hnot := eq_false_of_mem_getLast?_dropEndWhile hslash
  simp at hnot

/-- Further slashes at the end of the endpoint do not change the address. -/
theorem url_append_slashes (endpoint : String) (n : Nat) :
  url (endpoint ++ slashes n) = url endpoint
  := by
  rw [url, String.toList_append, slashes, String.toList_ofList, dropEndWhile_append_of_forall]
  · rfl
  · simp

/-- An address keeps the beginning of the endpoint up to any character that is followed by
something else than slashes. -/
theorem prefix_url (h : ∃ c ∈ rest.toList, c ≠ '/') :
  scheme.toList <+: (url (scheme ++ rest)).toList
  := by
  rw [toList_url, String.toList_append, dropEndWhile_append_of_exists, List.append_assoc]
  · apply List.prefix_append
  · simpa using h

/-- The address loses slashes of the scheme if nothing but slashes stands behind the scheme. -/
theorem not_prefix_url (hscheme : scheme ∈ ["http://", "https://"])
    (h : ∀ c ∈ rest.toList, c = '/') :
  ¬ scheme.toList <+: (url (scheme ++ rest)).toList
  := by
  rw [toList_url, String.toList_append, dropEndWhile_append_of_forall]
  · simp only [List.mem_cons, List.not_mem_nil, or_false] at hscheme
    obtain rfl | rfl := hscheme <;> decide
  · simpa using h

/-- A text that begins with another one has some rest behind it. -/
theorem exists_eq_append_of_prefix {text front : String} (h : front.toList <+: text.toList) :
  ∃ rest : String, text = front ++ rest
  := by
  obtain ⟨rest, hrest⟩ := h
  use String.ofList rest
  rw [← String.toList_inj, String.toList_append, String.toList_ofList, hrest]

/-- Usable settings have an endpoint that begins with a scheme. -/
theorem exists_endpoint_eq {s : Settings} (h : s.Usable) :
  ∃ scheme ∈ ["http://", "https://"], ∃ rest : String, s.execution.endpoint = scheme ++ rest
  := by
  obtain hprefix | hprefix := h.endpoint
  · use "http://", by simp
    apply exists_eq_append_of_prefix hprefix
  · use "https://", by simp
    apply exists_eq_append_of_prefix hprefix

/-- The address of the service when settings are usable.  The endpoint is a scheme with some rest
behind it.  The address begins with the same scheme just when the rest has a character that is no
slash.  In any case it ends in `/execute`, with a single slash in front of the word, and it is the
same when further slashes are put at the end of the endpoint. -/
theorem url_of_usable {s : Settings} (h : s.invalid? = none) :
  ∃ scheme ∈ ["http://", "https://"], ∃ rest : String, s.execution.endpoint = scheme ++ rest ∧
    (scheme.toList <+: (url s.execution.endpoint).toList ↔ ∃ c ∈ rest.toList, c ≠ '/') ∧
    (∃ front : String, url s.execution.endpoint = front ++ "/execute" ∧
      '/' ∉ front.toList.getLast?) ∧
    ∀ n, url (s.execution.endpoint ++ slashes n) = url s.execution.endpoint
  := by
  obtain ⟨scheme, hscheme, rest, hendpoint⟩ := exists_endpoint_eq (Settings.invalid?_eq_none_iff.mp h)
  refine ⟨scheme, hscheme, rest, hendpoint, ?_, exists_url_eq _, url_append_slashes _⟩
  rw [hendpoint]
  constructor
  · intro hprefix
    by_contra hslashes
    apply not_prefix_url hscheme _ hprefix
    simpa using hslashes
  · apply prefix_url

/-- The standard settings with another endpoint. -/
def settingsAt (endpoint : String) : Settings :=
  { Settings.standard with execution.endpoint := endpoint }

/-- A host of a single character is enough, and slashes behind it do not matter. -/
theorem url_of_usable_shortHost :
  (settingsAt "https://h/").invalid? = none ∧ "https://".toList <+: (url "https://h/").toList ∧
  url ("https://h/" ++ slashes 5) = url "https://h/"
  := by
  have husable : (settingsAt "https://h/").invalid? = none := by decide
  obtain ⟨scheme, hscheme, rest, hendpoint, hprefix, -, hsame⟩ := url_of_usable husable
  have hchars := congrArg String.toList hendpoint
  rw [String.toList_append] at hchars
  simp only [List.mem_cons, List.not_mem_nil, or_false] at hscheme
  obtain rfl | rfl := hscheme
  · simp [settingsAt] at hchars
  · have hrest : rest.toList = ['h', '/'] := by simpa [settingsAt, eq_comm] using hchars
    refine ⟨husable, hprefix.mpr ⟨'h', ?_⟩, hsame 5⟩
    simp [hrest]

/-- Settings with an endpoint that is a scheme and nothing else are usable, and the address does
not begin with this scheme. -/
theorem url_without_host :
  (settingsAt "http://").invalid? = none ∧ url "http://" = "http:/execute" ∧
  ¬ "http://".toList <+: (url "http://").toList
  := by
  decide

/-! ### The bodies -/

/-- An object with a text as its only member is canonical. -/
theorem canonical_single (name text : String) :
  (Json.obj [(name, .str text)]).Canonical
  := by
  apply Json.Canonical.obj
  · apply List.pairwise_singleton
  · intro m hm
    rw [List.mem_singleton.mp hm]
    apply Json.Canonical.str

/-- There is room for an object with a text as its only member. -/
theorem depth_single_le (name text : String) :
  (Json.obj [(name, .str text)]).depth ≤ Json.maxDepth
  := by
  simp [Json.depth, Json.membersDepth, Json.maxDepth]

/-- There is no number in an object with a text as its only member. -/
theorem doubles_single (name text : String) :
  (Json.obj [(name, .str text)]).doubles = []
  := rfl

/-- An object with a text as its only member is read back. -/
theorem parse_single (name text : String) :
  Json.parse ((Json.obj [(name, .str text)]).text .compact) = .ok (.obj [(name, .str text)])
  := by
  apply (canonical_single name text).parse_text _ (depth_single_le name text)
  simp [doubles_single]

/-- The text of an object with a text as its only member has this member and no other. -/
theorem hasMember_single_iff {name text other : String} {v : Json} :
  Json.HasMember ((Json.obj [(name, .str text)]).text .compact) other v
    ↔ other = name ∧ v = .str text
  := by
  rw [Json.hasMember_iff, parse_single]
  simp only [Except.ok.injEq, Json.obj.injEq, exists_eq_left']
  by_cases h : other = name
  · rw [h, Named.get?_cons_self]
    simp [eq_comm]
  · rw [Named.get?_cons_of_ne _ _ h]
    simp [Named.get?, h]

/-- Scripts and outputs are carried as they are.  Whatever characters a script has, the body of the
request to execute it means an object that has a single member, the script under the name `code`, and
this object is read from it.  Whatever characters an output has, the answer of a service with it and
with any status that is a success is taken for this output. -/
theorem texts_carried (code output : String) (status : Nat) (h : 200 ≤ status ∧ status ≤ 299) :
  Json.HasMembers ((request code).text .compact) [("code", .str code)] ∧
  Json.parse ((request code).text .compact) = .ok (.obj [("code", .str code)]) ∧
  interpret status ((answer output).text .compact) = .ok output
  := by
  have hcanonical := canonical_single "code" code
  have hnumbers : ∀ d ∈ (Json.obj [("code", .str code)]).doubles, d.ReadsBack := by
    simp [doubles_single]
  refine ⟨hcanonical.hasMembers_text hnumbers (depth_single_le "code" code) .compact,
    parse_single "code" code, ?_⟩
  apply interpret_eq_ok_iff.mpr
  refine ⟨h, hasMember_single_iff.mpr ⟨rfl, rfl⟩, ?_⟩
  -- The name of the output is none of the two names under which errors are told.
  apply forall_not_tellsError_iff.mpr
  intro name hname v hv
  obtain ⟨rfl, -⟩ := hasMember_single_iff.mp hv
  simp at hname

/-- A script with quotes, a backslash, control characters and a character beyond the basic plane. -/
def trickyScript : String :=
  "print(\"\\\", '\x00\t\x1f\n\x7f\u2028😀')"

/-- The tricky script is sent as it is, and comes back as an output as it is. -/
theorem texts_carried_tricky :
  Json.parse ((request trickyScript).text .compact) = .ok (.obj [("code", .str trickyScript)]) ∧
  interpret 299 ((answer trickyScript).text .compact) = .ok trickyScript
  := by
  apply (texts_carried trickyScript trickyScript 299 (by decide)).2

end Execution

end TextPipeline
