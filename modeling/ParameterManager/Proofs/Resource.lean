/-
The address of a parameter, and the name in it.

Below a base address a name is six more segments of the path, whatever its identifiers are
made of: a sign that would end a segment, or the path, is escaped, and so is the percent sign
itself.  Decoding the six gives the parts of the name back, and so no two names share an
address, not even if queries are put after them.
-/
import ParameterManager.Proofs.Registry.Reach
import ParameterManager.Proofs.Update
import ParameterManager.Proofs.Url.Base
import ParameterManager.Proofs.Url.Form

namespace ParameterManager

namespace Url

/-! ### Segments -/

/-- A segment is decoded to the identifier that it was written for. -/
theorem decoded?_written (s : String) : Message.decoded? (written s) = some s := by
  have hdecode : Percent.decode (Utf8.encode (written s)) = Utf8.encode s := by
    rw [Utf8.encode, written, String.toList_ofList, Percent.decode_encodeChars (by decide)]
    rfl
  rw [Message.decoded?, hdecode, Utf8.text?_encode]

/-! ### Addresses as text -/

/-- The path and the query stand at the end of an address that has no fragment. -/
theorem text_eq {u : Url} (h : u.fragment = none) (path : UrlPath) (query : Option String) :
    ({ u with path, query } : Url).text =
      ({ u with path := .segments [], query := none } : Url).text ++
        ({ u with path, query } : Url).target := by
  have hnone : ({ u with path := .segments [], query := none } : Url).target = "" := rfl
  unfold text
  rw [hnone]
  simp only [h, authority, String.append_empty]

/-- What a query adds to the end of an address. -/
private def tailOf : Option String → List Char
  | some q => '?' :: q.toList
  | none => []

private theorem toList_target (u : Url) :
    u.target.toList = u.pathText.toList ++ tailOf u.query := by
  unfold target
  cases u.query with
  | some q => simp [tailOf]
  | none => simp [tailOf]

/-- A path that spells identifiers ends where the first question mark stands. -/
private theorem takeWhile_pathOf (names : List String) (query : Option String) :
    ((Route.pathOf names).toList ++ tailOf query).takeWhile (· ≠ '?')
      = (Route.pathOf names).toList := by
  have hpath : ∀ c ∈ (Route.pathOf names).toList, decide (c ≠ '?') = true :=
    fun c hc => decide_eq_true fun h => Route.question_not_mem_pathOf names (h ▸ hc)
  have htail : (tailOf query).takeWhile (· ≠ '?') = [] := by
    cases query with
    | some q => rfl
    | none => rfl
  rw [List.takeWhile_append_of_pos hpath, htail, List.append_nil]

/-- **An address determines the identifiers at the end of its path**, whatever the path starts
with and whatever query comes after it. -/
theorem names_of_text {u : Url} (h : u.fragment = none) {list names names' : List String}
    {query query' : Option String}
    (heq : ({ u with path := .segments (list ++ names.map written), query } : Url).text
      = ({ u with path := .segments (list ++ names'.map written), query := query' } : Url).text) :
    names = names' := by
  have hpath : ∀ (names : List String) (query : Option String),
      ({ u with path := .segments (list ++ names.map written), query } : Url).target.toList
        = (list.flatMap fun s => '/' :: s.toList) ++
          ((Route.pathOf names).toList ++ tailOf query) := by
    intro names query
    rw [toList_target, pathText, UrlPath.text, String.toList_ofList, List.flatMap_append,
      List.flatMap_map, Route.toList_pathOf, List.append_assoc]
  have htargets := (text_eq h _ query).symm.trans (heq.trans (text_eq h _ query'))
  have hchars := congrArg String.toList htargets
  rw [String.toList_append, String.toList_append, hpath, hpath] at hchars
  have hends := List.append_cancel_left (List.append_cancel_left hchars)
  have hpaths := congrArg (List.takeWhile (· ≠ '?')) hends
  rw [takeWhile_pathOf, takeWhile_pathOf] at hpaths
  exact Route.pathOf_injective (String.toList_inj.mp hpaths)

end Url

namespace ParameterName

theorem IsPlain.segments {n : ParameterName} (h : n.IsPlain) : ∀ s ∈ n.segments, Url.IsPlain s := by
  have hword : ∀ s ∈ ["projects", "locations", "parameters"], Url.IsPlain s := by decide
  intro s hs
  simp only [ParameterName.segments, List.mem_cons, List.not_mem_nil, or_false] at hs
  rcases hs with rfl | rfl | rfl | rfl | rfl | rfl
  · exact hword _ (by simp)
  · exact h.project
  · exact hword _ (by simp)
  · exact h.location
  · exact hword _ (by simp)
  · exact h.parameter

theorem segments_injective {n m : ParameterName} (h : n.segments = m.segments) : n = m := by
  obtain ⟨project, location, parameter⟩ := n
  obtain ⟨project', location', parameter'⟩ := m
  simpa [segments] using h

end ParameterName

namespace Client

variable {serverUrl : String} {u : Url} {n : ParameterName}

/-! ### Addresses of parameters -/

/-- The address of a plain name is the address of the interface with the name written after its
path. -/
theorem resource_plain (hbase : Url.IsBase serverUrl u) (hn : n.IsPlain) {list : List String}
    (hpath : u.path = .segments (list ++ [apiVersion])) :
    resource serverUrl n =
      .ok { u with path := .segments (list ++ [apiVersion] ++ n.segments.map Url.written) } := by
  have hne : list ++ [apiVersion] ≠ [""] := Url.concat_ne_empty (by decide) list
  have hinterface :
      (Url.parse (serverUrl ++ "/" ++ apiVersion)).mapError ClientError.url = .ok u := by
    rw [hbase.interface]
    rfl
  have hextend : u.extend? n.segments =
      some { u with path := .segments (list ++ [apiVersion] ++ n.segments.map Url.written) } := by
    rw [Url.extend?, hpath]
    simp only [Url.foldl_pushSegment_plain hn.segments hne]
  simp only [resource, hinterface, bind, Except.bind, hextend]

/-- What is the same in an address below that of an interface, in a name, and in the requests
for it. -/
structure RoundTrips (serverUrl : String) (u : Url) (n : ParameterName) (w : Url) : Prop where
  /-- Six more segments are decoded to the parts of the name, one by one. -/
  path : ∃ list six, u.path = .segments list ∧ w = { u with path := .segments (list ++ six) } ∧
    six.length = 6 ∧ (∀ s ∈ six, '/' ∉ s.toList) ∧
    six.map Message.decoded? = n.segments.map some
  noQuery : w.query = none
  noFragment : w.fragment = none
  /-- The parts make up the name that a change sends. -/
  sent : ∀ updates, (UpdateRequest.ofUpdates n updates).parameter.members.head?
    = some ("name", .string (Text.join '/' n.segments))
  displayed : n.display = Text.join '/' n.segments
  /-- The query of a change is one pair, with the mask. -/
  masked : ∀ parameter mask, ∃ query,
    maskedResource serverUrl ⟨n, parameter, mask⟩ = .ok { w with query := some query } ∧
    Form.decode (Utf8.encode query) = [(maskName, mask.queryValue)]
  /-- Other names have other addresses, with or without a query. -/
  determined : ∀ m w' query query', m.IsPlain → resource serverUrl m = .ok w' →
    ({ w with query } : Url).text = ({ w' with query := query' } : Url).text → n = m

/-- **A name can be read off its address.**  Below every base address a plain name has an
address, with six segments of its own that spell it, and no other plain name has the same. -/
theorem resource_round_trips (hbase : Url.IsBase serverUrl u) (hn : n.IsPlain) :
    ∃ w, resource serverUrl n = .ok w ∧ RoundTrips serverUrl u n w := by
  obtain ⟨list, hpath⟩ := hbase.path
  have hresource := resource_plain hbase hn hpath
  refine ⟨_, hresource, ?_⟩
  exact {
    path := by
      refine ⟨_, n.segments.map Url.written, hpath, rfl, rfl, ?_, ?_⟩
      · intro s hs
        obtain ⟨part, -, rfl⟩ := List.mem_map.mp hs
        exact Url.not_mem_written (by decide) (by decide) (by decide)
      · rw [List.map_map]
        exact List.map_congr_left fun s _ => Url.decoded?_written s
    noQuery := hbase.noQuery
    noFragment := hbase.noFragment
    sent := by
      intro updates
      have hname := (UpdateRequest.sameOutside_foldl updates { name := n.display }).name
      rw [← ParameterName.display_eq_join]
      exact congrArg (fun name => some ("name", Json.string name)) hname
    displayed := n.display_eq_join
    masked := by
      intro parameter mask
      refine ⟨Form.encode [(maskName, mask.queryValue)], ?_, Form.decode_encode _⟩
      rw [maskedResource, hresource]
      simp only [Except.map, Url.appendPair, hbase.noQuery]
    determined := by
      intro m w' query query' hm hw' htext
      rw [resource_plain hbase hm hpath] at hw'
      obtain rfl := Except.ok.inj hw'
      exact ParameterName.segments_injective (Url.names_of_text hbase.noFragment htext) }

theorem signs_round_trip :
    ∃ w, resource "https://host/a b" ⟨"p/1", "..%2F", "50% é?#\\"⟩ = .ok w ∧
      RoundTrips "https://host/a b"
        { scheme := "https", host := some (.domain "host"), path := .segments ["a%20b", "v1"] }
        ⟨"p/1", "..%2F", "50% é?#\\"⟩ w :=
  resource_round_trips (by decide +kernel) ⟨by decide, by decide, by decide⟩

end Client

end ParameterManager
