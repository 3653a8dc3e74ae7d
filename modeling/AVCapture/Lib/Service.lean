import Mathlib.Data.List.Basic

/-!
# Services

A service answers requests one after another from a state. A request is *inert* when its
response depends on the request alone and the state stays as it is. A sequence of inert
requests neither acts on the state nor observes it.
-/

namespace Service

variable {σ ρ ω : Type*}

/-- Handle the requests in order: the responses, and the state after the last one. -/
def serve (handle : σ → ρ → ω × σ) : σ → List ρ → List ω × σ
  | s, [] => ([], s)
  | s, r :: rs =>
    let out := handle s r
    let rest := serve handle out.2 rs
    (out.1 :: rest.1, rest.2)

/-- The request is answered by `answer`, in every state, and changes none. -/
def Inert (handle : σ → ρ → ω × σ) (answer : ρ → ω) (r : ρ) : Prop :=
  ∀ s, handle s r = (answer r, s)

/-- **Noninterference**: inert requests leave the state, and their responses are the same
    from every state. -/
theorem serve_of_inert {handle : σ → ρ → ω × σ} {answer : ρ → ω} {rs : List ρ}
    (h : ∀ r ∈ rs, Inert handle answer r) (s : σ) :
    serve handle s rs = (rs.map answer, s) := by
  induction rs with
  | nil => rfl
  | cons r rs ih =>
    have hhead : handle s r = (answer r, s) := h r (List.mem_cons_self ..) s
    have htail : serve handle s rs = (rs.map answer, s) :=
      ih fun r' hr' => h r' (List.mem_cons_of_mem _ hr')
    simp only [serve, hhead, htail, List.map_cons]

end Service
