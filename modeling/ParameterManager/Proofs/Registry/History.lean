/-
What a registry holds after any number of requests.

Requests of any number of clients reach a registry one after the other, so a list of
requests is all there is to know about who sent what and when.  The registry is compared
with its own history: a field of a stored parameter is what the last request that wrote
it has carried, and the seed's if there is none.

The invariant is `Faithful`.  It holds of a registry that has answered nothing, and each
of the steps a registry can do keeps it, since a step that writes is at the same time the
latest entry of the history.
-/
import ParameterManager.Proofs.Registry.Answer

namespace ParameterManager.Registry

/-! ### Runs -/

/-- A request that has been answered. -/
structure Answered where
  request : Request
  response : Response

/-- A registry, and what it has answered so far, the latest first. -/
structure History where
  log : List Answered
  registry : Registry

namespace History

/-- The history of a registry that has answered nothing yet. -/
def start (ps : List Parameter) : History := ⟨[], ofList ps⟩

/-- One more request is answered. -/
def serve (h : History) (q : Request) : History where
  log := ⟨q, (h.registry.handle q).1⟩ :: h.log
  registry := (h.registry.handle q).2

/-- The history of a seeded registry after some requests, in the order in which they are
processed. -/
def ofRequests (ps : List Parameter) (qs : List Request) : History := qs.foldl serve (start ps)

end History

/-! ### Where a field comes from -/

/-- The parameter that seeds a name: the last one of that name. -/
def seed? (ps : List Parameter) (name : String) : Option Parameter :=
  ps.reverse.find? fun p => p.name = name

/-- The parameter that an answered request carried, if it wrote a field of a name: it was an
update of that name, its mask named the field, and it was answered with a success. -/
def Answered.source? (name : String) (f : MaskField) (a : Answered) : Option Parameter :=
  match carried? a.request with
  | some (u, delta) =>
    if a.response.status = .ok ∧ u.name = name ∧ f.path ∈ u.paths then some delta else none
  | none => none

/-- The parameter that the latest request which wrote a field of a name carried. -/
def History.source? (h : History) (name : String) (f : MaskField) : Option Parameter :=
  h.log.findSome? (·.source? name f)

/-- A registry holds what its seed and its history say. -/
structure Faithful (ps : List Parameter) (h : History) : Prop where
  names : ∀ name, h.registry.parameters.get? name = none ↔ seed? ps name = none
  entries : ∀ name p seed, h.registry.parameters.get? name = some p → seed? ps name = some seed →
    p.SameOutside seed ∧ ∀ f : MaskField, f.get p = f.get ((h.source? name f).getD seed)

/-! ### The start -/

theorem get?_ofList (ps : List Parameter) (name : String) :
    (ofList ps).parameters.get? name = seed? ps name := by
  show (Table.ofList (ps.map fun p => (p.name, p))).get? name = _
  rw [Table.get?_ofList, ← List.map_reverse, List.find?_map, Option.map_map]
  exact Option.map_id'

theorem name_of_seed? {ps : List Parameter} {name : String} {p : Parameter}
    (h : seed? ps name = some p) : p.name = name := by
  simpa using List.find?_some h

theorem seed?_isSome {ps : List Parameter} {name : String} :
    (seed? ps name).isSome ↔ ∃ p ∈ ps, p.name = name := by
  simp [seed?, List.find?_isSome]

private theorem faithful_start (ps : List Parameter) : Faithful ps (.start ps) where
  names name := by
    show (ofList ps).parameters.get? name = none ↔ _
    rw [get?_ofList]
  entries name p seed hp hseed := by
    have hget : (ofList ps).parameters.get? name = some p := hp
    rw [get?_ofList, hseed] at hget
    obtain rfl := Option.some.inj hget
    exact ⟨.refl _, fun _ => rfl⟩

/-- What is stored has been seeded, and differs from its seed in fields that were written. -/
theorem Faithful.entry {ps : List Parameter} {h : History} (hf : Faithful ps h) {name : String}
    {p : Parameter} (hp : h.registry.parameters.get? name = some p) :
    p.name = name ∧ ∃ seed, seed? ps name = some seed ∧ p.SameOutside seed ∧
      ∀ f : MaskField, f.get p = f.get ((h.source? name f).getD seed) := by
  have hsome : seed? ps name ≠ none := by
    rw [ne_eq, ← hf.names, hp]
    simp
  obtain ⟨seed, hseed⟩ := Option.ne_none_iff_exists'.mp hsome
  obtain ⟨houtside, hfields⟩ := hf.entries name p seed hp hseed
  exact ⟨houtside.name.trans (name_of_seed? hseed), seed, hseed, houtside, hfields⟩

/-! ### One step -/

/-- A response that is no success, or a request that carries no update, writes no field. -/
private theorem source?_serve (h : History) (q : Request) (name : String) (f : MaskField) :
    (h.serve q).source? name f
      = ((⟨q, (h.registry.handle q).1⟩ : Answered).source? name f).or (h.source? name f) := by
  show List.findSome? _ (_ :: h.log) = _
  rw [List.findSome?_cons]
  split
  · next hsome => rw [hsome]; rfl
  · next hnone => rw [hnone]; rfl

/-- Each step keeps a registry faithful to its history. -/
private theorem Faithful.serve {ps : List Parameter} {h : History} (hf : Faithful ps h)
    (q : Request) :
    Faithful ps (h.serve q) := by
  obtain ⟨hnames, hentries⟩ := hf
  have hsource := source?_serve h q
  have hstep := handle_step h.registry q
  have hregistry : (h.serve q).registry = (h.registry.handle q).2 := rfl
  generalize h.registry.handle q = result at hstep hsource hregistry
  -- a step that leaves the parameters alone has written nothing
  have hquiet : result.2.parameters = h.registry.parameters →
      (∀ name f, (⟨q, result.1⟩ : Answered).source? name f = none) → Faithful ps (h.serve q) := by
    intro hsame hnone
    refine ⟨?_, ?_⟩
    · intro name
      rw [hregistry, hsame]
      exact hnames name
    · intro name p seed hp hseed
      rw [hregistry, hsame] at hp
      obtain ⟨houtside, hfields⟩ := hentries name p seed hp hseed
      refine ⟨houtside, ?_⟩
      intro f
      rw [hsource, hnone]
      exact hfields f
  cases hstep with
  | read hroute _ _ =>
      refine hquiet rfl ?_
      intro name f
      simp only [Answered.source?, carried?, hroute]
  | token hroute =>
      refine hquiet rfl ?_
      intro name f
      simp only [Answered.source?, carried?, hroute]
  | refused hstatus hsame =>
      refine hquiet hsame ?_
      intro name f
      unfold Answered.source?
      split
      · rw [if_neg fun hc => by rw [hc.1] at hstatus; exact absurd hstatus (by decide)]
      · rfl
  | @written n u delta stored p hroute _ hcarried hname _ hstored hpatched =>
      have hget : ∀ name, (h.serve q).registry.parameters.get? name
          = if name = n.display then some p else h.registry.parameters.get? name := by
        intro name
        rw [hregistry]
        exact Table.get?_insert ..
      have hwrote : ∀ name (f : MaskField),
          (⟨q, jsonResponse .ok p.toJson⟩ : Answered).source? name f
            = if n.display = name ∧ f.path ∈ u.paths then some delta else none := by
        intro name f
        have hok : (jsonResponse .ok p.toJson).status = .ok := rfl
        simp only [Answered.source?, hcarried, hok, hname, true_and]
      refine ⟨?_, ?_⟩
      · intro name
        rw [hget]
        by_cases heq : name = n.display
        · rw [if_pos heq, heq, ← hnames, hstored]
          simp
        · rw [if_neg heq]
          exact hnames name
      · intro name p' seed hp hseed
        rw [hget] at hp
        by_cases heq : name = n.display
        · rw [if_pos heq] at hp
          obtain rfl := Option.some.inj hp
          obtain ⟨houtside, hfields⟩ := hentries name stored seed (heq ▸ hstored) hseed
          refine ⟨hpatched.outside.trans houtside, ?_⟩
          intro f
          rw [hsource, hwrote]
          by_cases hpath : f.path ∈ u.paths
          · rw [if_pos ⟨heq.symm, hpath⟩, hpatched.named f hpath]
            rfl
          · rw [if_neg fun hc => hpath hc.2, hpatched.unnamed f hpath]
            exact hfields f
        · rw [if_neg heq] at hp
          obtain ⟨houtside, hfields⟩ := hentries name p' seed hp hseed
          refine ⟨houtside, ?_⟩
          intro f
          rw [hsource, hwrote, if_neg fun hc => heq hc.1.symm]
          exact hfields f

/-! ### All runs -/

private theorem faithful_foldl {ps : List Parameter} (qs : List Request) {h : History}
    (hf : Faithful ps h) : Faithful ps (qs.foldl History.serve h) := by
  induction qs generalizing h with
  | nil => exact hf
  | cons q qs ih => exact ih (hf.serve q)

/-- A registry is faithful to its history, whatever the requests were. -/
theorem faithful_ofRequests (ps : List Parameter) (qs : List Request) :
    Faithful ps (.ofRequests ps qs) := faithful_foldl qs (faithful_start ps)

/-- A response is a success and says what a parameter is; who reads it reads that parameter. -/
def Shows (response : Response) (p : Parameter) : Prop :=
  response = jsonResponse .ok p.toJson ∧ Parameter.wire.ofString response.text = .ok p

private theorem shows_jsonResponse (p : Parameter) : Shows (jsonResponse .ok p.toJson) p :=
  ⟨rfl, ofString_jsonResponse p⟩

/-- The method of a request tells which kinds of route it may have. -/
private theorem method_of_route {q : Request} :
    (∀ n, Route.ofRequest? q = some (.get n) → q.method = "GET") ∧
    (∀ n, Route.ofRequest? q = some (.update n) → q.method = "PATCH") ∧
    (Route.ofRequest? q = some .token → q.method = "POST") := by
  simp only [Route.ofRequest?]
  split
  · next hget =>
    refine ⟨fun _ _ => hget, ?_, ?_⟩
    · intro n h
      obtain ⟨_, -, h⟩ := Option.map_eq_some_iff.mp h
      simp at h
    · intro h
      obtain ⟨_, -, h⟩ := Option.map_eq_some_iff.mp h
      simp at h
  split
  · next hpatch =>
    refine ⟨?_, fun _ _ => hpatch, ?_⟩
    · intro n h
      obtain ⟨_, -, h⟩ := Option.map_eq_some_iff.mp h
      simp at h
    · intro h
      obtain ⟨_, -, h⟩ := Option.map_eq_some_iff.mp h
      simp at h
  split
  · next hpost => exact ⟨fun _ h => by simp at h, fun _ h => by simp at h, fun _ => hpost.1⟩
  · exact ⟨fun _ h => by simp at h, fun _ h => by simp at h, fun h => by simp at h⟩

/-- What a success on the way shows: a read the parameter that is stored, an update the one
that is stored after it. -/
private theorem shown_of_success (h : History) (q : Request)
    (hok : (h.registry.handle q).1.status = .ok) :
    (q.method = "GET" → ∃ n p, Route.ofRequest? q = some (.get n) ∧
      h.registry.parameters.get? n.display = some p ∧ Shows (h.registry.handle q).1 p) ∧
    (q.method = "PATCH" → ∃ n p u delta, Route.ofRequest? q = some (.update n) ∧
      carried? q = some (u, delta) ∧ u.name = n.display ∧
      (h.serve q).registry.parameters.get? n.display = some p ∧
      Shows (h.registry.handle q).1 p) := by
  obtain ⟨hget, hpatch, hpost⟩ := method_of_route (q := q)
  have hstep := handle_step h.registry q
  have hregistry : (h.serve q).registry = (h.registry.handle q).2 := rfl
  rw [hregistry]
  generalize h.registry.handle q = result at hstep hok
  cases hstep with
  | @read n p hroute _ hp =>
      refine ⟨fun _ => ⟨n, p, hroute, hp, shows_jsonResponse p⟩, ?_⟩
      intro hmethod
      rw [hget n hroute] at hmethod
      simp at hmethod
  | token hroute =>
      refine ⟨?_, ?_⟩
      · intro hmethod
        rw [hpost hroute] at hmethod
        simp at hmethod
      · intro hmethod
        rw [hpost hroute] at hmethod
        simp at hmethod
  | refused hstatus _ =>
      rw [hok] at hstatus
      exact absurd hstatus (by decide)
  | @written n u delta stored p hroute _ hcarried hname _ _ _ =>
      refine ⟨fun hmethod => ?_, fun _ => ⟨n, p, u, delta, hroute, hcarried, hname, ?_,
        shows_jsonResponse p⟩⟩
      · rw [hpatch n hroute] at hmethod
        simp at hmethod
      · show (h.registry.parameters.insert n.display p).get? n.display = some p
        rw [Table.get?_insert, if_pos rfl]

/-- **No update is lost, none is made twice, and none lands elsewhere.**

After any requests a registry holds the names of its seed and no others.  Each parameter
stands under its own name, and outside its three fields it is the last one that seeds the
name.  Each field is the one that the latest update answered with a success and naming the
field in its mask has carried, set or not, or the seed's if there is none.  What is read
from then on is what is stored, and what an update answers is what it leaves behind. -/
theorem last_write_stands (ps : List Parameter) (qs : List Request) :
    let h := History.ofRequests ps qs
    (∀ name, (∃ p, h.registry.parameters.get? name = some p) ↔ ∃ p ∈ ps, p.name = name) ∧
    (∀ name p, h.registry.parameters.get? name = some p → p.name = name ∧
      ∃ seed, seed? ps name = some seed ∧ p.SameOutside seed ∧
        ∀ f : MaskField, f.get p = f.get ((h.source? name f).getD seed)) ∧
    ∀ q, (h.registry.handle q).1.status = .ok →
      (q.method = "GET" → ∃ n p, Route.ofRequest? q = some (.get n) ∧
        h.registry.parameters.get? n.display = some p ∧ Shows (h.registry.handle q).1 p) ∧
      (q.method = "PATCH" → ∃ n p u delta, Route.ofRequest? q = some (.update n) ∧
        carried? q = some (u, delta) ∧ u.name = n.display ∧
        (h.serve q).registry.parameters.get? n.display = some p ∧
        Shows (h.registry.handle q).1 p) := by
  intro h
  have hf : Faithful ps h := faithful_ofRequests ps qs
  refine ⟨?_, fun name p hp => hf.entry hp, fun q => shown_of_success h q⟩
  intro name
  rw [← seed?_isSome, ← Option.isSome_iff_exists, ← Option.ne_none_iff_isSome,
    ← Option.ne_none_iff_isSome]
  exact not_congr (hf.names name)

end ParameterManager.Registry
