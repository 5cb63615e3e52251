/-
Two computations that cannot be told apart by what they come to.

Two computations are alike if they ask the same places for requests that are alike, go on
alike whatever is answered, and end with the same value.  Against a party that gives the
same answers to requests that are alike, they come to the same value, and what they send is
alike, request by request.  A script is such a party for every notion of being alike, since
it does not look at requests.

The notion here is that requests differ in an access token at most: one header value may be
the one of the first token in one request and that of the second in the other.  Sending a
message keeps the difference where it is, through all redirects, for nothing that becomes of
a message depends on its headers but whether they can be sent.
-/
import Mathlib.Data.List.Forall2
import ParameterManager.Proofs.Http.Header
import ParameterManager.Proofs.Http.Sent

namespace ParameterManager

/-! ### Computations -/

namespace Exchange

variable {α β σ : Type} {alike : Request → Request → Prop}

/-- Two computations ask for requests that are alike, and come to the same value. -/
inductive Alike (alike : Request → Request → Prop) : Exchange α → Exchange α → Prop
  | done (a : α) : Alike alike (done a) (done a)
  | ask {origin : Origin} {q q' : Request} {next next' : Option Response → Exchange α} :
    alike q q' → (∀ answer, Alike alike (next answer) (next' answer)) →
    Alike alike (ask origin q next) (ask origin q' next')

/-- Computations that are alike stay alike if they go on alike. -/
theorem Alike.bind {x x' : Exchange α} {f f' : α → Exchange β} (h : Alike alike x x')
    (hf : ∀ a, Alike alike (f a) (f' a)) : Alike alike (x >>= f) (x' >>= f') := by
  induction h with
  | done a => exact hf a
  | ask hq _ ih => exact .ask hq ih

/-- A party that answers requests that are alike in the same way, from states that need not be
the same. -/
def Party.Ignores (party : Party σ) (alike : Request → Request → Prop) (same : σ → σ → Prop) :
    Prop :=
  ∀ origin q q' s s', alike q q' → same s s' →
    (party origin q s).1 = (party origin q' s').1 ∧
      same (party origin q s).2 (party origin q' s').2

end Exchange

/-- Two requests that were sent to the same place, are alike, and were answered the same. -/
structure Sent.Alike (alike : Request → Request → Prop) (d d' : Sent) : Prop where
  origin : d.origin = d'.origin
  request : alike d.request d'.request
  answer : d.answer = d'.answer

namespace Exchange

variable {α σ : Type} {alike : Request → Request → Prop} {party : Party σ} {same : σ → σ → Prop}

/-- **Computations that are alike come to the same value and send what is alike**, to a party
that ignores the difference. -/
theorem Alike.outcome {x x' : Exchange α} (h : Alike alike x x') (hparty : party.Ignores alike same)
    {s s' : σ} (hs : same s s') :
    (run party x s).1 = (run party x' s').1 ∧ same (run party x s).2 (run party x' s').2 ∧
      List.Forall₂ (Sent.Alike alike) (sent party x s) (sent party x' s') := by
  induction h generalizing s s' with
  | done a => exact ⟨rfl, hs, .nil⟩
  | @ask origin q q' next next' hq _ ih =>
      obtain ⟨hanswer, hstate⟩ := hparty origin q q' s s' hq hs
      obtain ⟨hvalue, hrest, hsent⟩ := ih (party origin q s).1 hstate
      have hrun : (run party (next (party origin q s).1) (party origin q s).2).1
          = (run party (next' (party origin q' s').1) (party origin q' s').2).1 := by
        rw [← hanswer]
        exact hvalue
      refine ⟨hrun, ?_, ?_⟩
      · show same (run party (next _) _).2 (run party (next' (party origin q' s').1) _).2
        rw [← hanswer]
        exact hrest
      · refine .cons ⟨rfl, hq, hanswer⟩ ?_
        rw [← hanswer]
        exact hsent

end Exchange

/-- A script does not look at requests. -/
theorem Script.ignores (alike : Request → Request → Prop) :
    Exchange.Party.Ignores Script.answer alike fun s s' => s.responses = s'.responses := by
  rintro origin q q' ⟨responses, seen⟩ ⟨responses', seen'⟩ - (rfl : responses = responses')
  cases responses with
  | nil => exact ⟨rfl, rfl⟩
  | cons response rest => exact ⟨rfl, rfl⟩

/-! ### Requests but for a token -/

/-- Two lists of header values differ in the values of two tokens at most. -/
abbrev HeadersBut (token token' : String) : List Bytes → List Bytes → Prop :=
  List.Forall₂ fun v v' => v = v' ∨ (v = Message.bearer token ∧ v' = Message.bearer token')

theorem HeadersBut.refl (token token' : String) (vs : List Bytes) :
    HeadersBut token token' vs vs := by
  induction vs with
  | nil => exact .nil
  | cons v vs ih => exact .cons (Or.inl rfl) ih

/-- Two requests are the same but for an access token. -/
structure Request.SameBut (token token' : String) (q q' : Request) : Prop where
  method : q.method = q'.method
  target : q.target = q'.target
  authorization : HeadersBut token token' q.authorization q'.authorization
  contentType : q.contentType = q'.contentType
  body : q.body = q'.body

namespace Message

variable {token token' : String} {m m' : Message}

/-- Two messages are the same but for an access token. -/
structure SameBut (token token' : String) (m m' : Message) : Prop where
  method : m.method = m'.method
  url : m.url = m'.url
  authorization : HeadersBut token token' m.authorization m'.authorization
  contentType : m.contentType = m'.contentType
  body : m.body = m'.body

theorem sameBut_withToken (m : Message) (token token' : String) :
    SameBut token token' (m.withToken token) (m.withToken token') where
  method := rfl
  url := rfl
  authorization := List.rel_append (HeadersBut.refl token token' _) (.cons (Or.inr ⟨rfl, rfl⟩) .nil)
  contentType := rfl
  body := rfl

theorem SameBut.withBody (h : SameBut token token' m m') (contentType : String) (body : Bytes) :
    SameBut token token' (m.withBody contentType body) (m'.withBody contentType body) :=
  ⟨h.method, h.url, h.authorization, rfl, rfl⟩

namespace SameBut

theorem request (h : SameBut token token' m m') : m.request.SameBut token token' m'.request :=
  ⟨h.method, by rw [Message.request, Message.request, h.url], h.authorization, h.contentType, h.body⟩

theorem origin? (h : SameBut token token' m m') : m.origin? = m'.origin? := by
  rw [Message.origin?, Message.origin?, h.url]

/-- The header values can be sent in both messages or in neither. -/
theorem isSendable (h : SameBut token token' m m') (htoken : IsHeaderText token)
    (htoken' : IsHeaderText token') : m.isSendable = m'.isSendable := by
  have hall : ∀ {vs vs' : List Bytes}, HeadersBut token token' vs vs' →
      vs.all (·.all isHeaderByte) = vs'.all (·.all isHeaderByte) := by
    intro vs vs' hvs
    induction hvs with
    | nil => rfl
    | cons hv _ ih =>
        rw [List.all_cons, List.all_cons, ih]
        rcases hv with rfl | ⟨rfl, rfl⟩
        · rfl
        · rw [htoken.bearer, htoken'.bearer]
  rw [Message.isSendable, Message.isSendable, h.url, hall h.authorization]

theorem withoutBody (h : SameBut token token' m m') :
    SameBut token token' m.withoutBody m'.withoutBody := by
  refine ⟨?_, h.url, h.authorization, rfl, rfl⟩
  rw [Message.withoutBody, Message.withoutBody, h.method]

theorem movedTo (h : SameBut token token' m m') (u : Url) :
    SameBut token token' (m.movedTo u) (m'.movedTo u) := by
  rw [Message.movedTo, Message.movedTo, h.url]
  split
  · exact ⟨h.method, rfl, h.authorization, h.contentType, h.body⟩
  · exact ⟨h.method, rfl, .nil, h.contentType, h.body⟩

/-- A response sends both messages on, to the same place, or neither. -/
theorem redirected? (h : SameBut token token' m m') (r : Response) :
    Option.Rel (SameBut token token') (m.redirected? r) (m'.redirected? r) := by
  have hnext : m.nextUrl? r = m'.nextUrl? r := by rw [nextUrl?, nextUrl?, h.url]
  have hkept : SameBut token token' (if r.status.keepsMethod then m else m.withoutBody)
      (if r.status.keepsMethod then m' else m'.withoutBody) := by
    by_cases hkeeps : r.status.keepsMethod = true
    · rw [if_pos hkeeps, if_pos hkeeps]
      exact h
    · rw [if_neg hkeeps, if_neg hkeeps]
      exact h.withoutBody
  rw [Message.redirected?, Message.redirected?, hnext]
  split
  · cases m'.nextUrl? r with
    | none => exact .none
    | some u => exact .some (hkept.movedTo u)
  · exact .none

/-! ### Sending -/

private theorem round {again again' : Message → Remote Response}
    (hagain : ∀ m m', SameBut token token' m m' →
      Exchange.Alike (Request.SameBut token token') (ExceptT.run (again m)) (ExceptT.run (again' m')))
    (h : SameBut token token' m m') :
    Exchange.Alike (Request.SameBut token token') (ExceptT.run (round again m))
      (ExceptT.run (round again' m')) := by
  unfold Message.round
  rw [h.origin?]
  cases m'.origin? with
  | none => exact .done _
  | some origin =>
      refine .ask h.request fun answer => ?_
      cases answer with
      | none => exact .done _
      | some r =>
          have hnext := h.redirected? r
          dsimp only
          cases hm : m.redirected? r with
          | none =>
              rw [hm] at hnext
              cases hm' : m'.redirected? r with
              | none => exact .done _
              | some next' =>
                  rw [hm'] at hnext
                  cases hnext
          | some next =>
              rw [hm] at hnext
              cases hm' : m'.redirected? r with
              | none =>
                  rw [hm'] at hnext
                  cases hnext
              | some next' =>
                  rw [hm'] at hnext
                  cases hnext with
                  | some hsame => exact hagain next next' hsame

private theorem follow (n : Nat) (h : SameBut token token' m m') :
    Exchange.Alike (Request.SameBut token token') (ExceptT.run (follow n m))
      (ExceptT.run (follow n m')) := by
  induction n generalizing m m' with
  | zero => exact round (fun _ _ _ => .done _) h
  | succ n ih => exact round (fun _ _ hsame => ih hsame) h

/-- **Two messages that differ in tokens that can be sent are sent alike**, wherever they are
sent on to. -/
theorem send (h : SameBut token token' m m') (htoken : IsHeaderText token)
    (htoken' : IsHeaderText token') :
    Exchange.Alike (Request.SameBut token token') (ExceptT.run m.send) (ExceptT.run m'.send) := by
  unfold Message.send
  rw [h.isSendable htoken htoken']
  split
  · exact h.follow maxRedirects
  · exact .done _

end SameBut

end Message

end ParameterManager
