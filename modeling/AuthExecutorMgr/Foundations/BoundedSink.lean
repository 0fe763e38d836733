import Mathlib.Tactic

/-!
# Writing to a sink of bounded capacity

A writer appends a fixed sequence to a sink or fails, and it fails exactly when
the sequence does not fit. Writers of this kind are closed under sequencing,
under a change of the error and under iteration over a list, so that a record
format built from them either fits as a whole or fails as a whole.
-/

namespace BoundedSink

variable {α β ε S : Type*}

/-- `w` appends `bs` to any sink whose content still leaves room for it in
`cap`, and fails on every other sink. -/
def Appends (mk : List β → S) (cap : ℕ) (w : S → Except ε S) (bs : List β) : Prop :=
  ∀ content : List β, content.length ≤ cap →
    (content.length + bs.length ≤ cap → w (mk content) = .ok (mk (content ++ bs))) ∧
      (cap < content.length + bs.length → ∃ e, w (mk content) = .error e)

variable {mk : List β → S} {cap : ℕ}

theorem Appends.pure : Appends (ε := ε) mk cap .ok [] := by
  intro content hc
  refine ⟨fun _ => by rw [List.append_nil], fun h => ?_⟩
  rw [List.length_nil] at h
  omega

theorem Appends.bind {w₁ w₂ : S → Except ε S} {bs₁ bs₂ : List β} (h₁ : Appends mk cap w₁ bs₁)
    (h₂ : Appends mk cap w₂ bs₂) : Appends mk cap (fun s => w₁ s >>= w₂) (bs₁ ++ bs₂) := by
  intro content hc
  obtain ⟨hok, hfull⟩ := h₁ content hc
  rw [List.length_append]
  by_cases hfit : content.length + bs₁.length ≤ cap
  · have hlen : (content ++ bs₁).length = content.length + bs₁.length := List.length_append
    obtain ⟨hok', hfull'⟩ := h₂ (content ++ bs₁) (by omega)
    rw [hlen] at hok' hfull'
    constructor
    · intro h
      simp only [hok hfit, ← List.append_assoc]
      exact hok' (by omega)
    · intro h
      simp only [hok hfit]
      exact hfull' (by omega)
  · obtain ⟨e, he⟩ := hfull (by omega)
    exact ⟨fun h => by omega, fun _ => ⟨e, by simp only [he]; rfl⟩⟩

theorem Appends.mapError {ε' : Type*} {w : S → Except ε S} {bs : List β}
    (h : Appends mk cap w bs) (f : ε → ε') : Appends mk cap (fun s => (w s).mapError f) bs := by
  intro content hc
  obtain ⟨hok, hfull⟩ := h content hc
  refine ⟨fun hfit => ?_, fun hover => ?_⟩
  · simp only [hok hfit]
    rfl
  · obtain ⟨e, he⟩ := hfull hover
    exact ⟨f e, by simp only [he]; rfl⟩

/-- A check that every sink within capacity passes may stand in front. -/
theorem Appends.guarded {w : S → Except ε S} {bs : List β} (h : Appends mk cap w bs)
    {p : S → Bool} (hp : ∀ content : List β, content.length ≤ cap → p (mk content) = true) (e : ε) :
    Appends mk cap (fun s => if !p s then .error e else w s) bs := by
  intro content hc
  simpa [hp content hc] using h content hc

theorem Appends.foldlM {w : S → α → Except ε S} {encode : α → List β} {l : List α}
    (h : ∀ a ∈ l, Appends mk cap (fun s => w s a) (encode a)) :
    Appends mk cap (fun s => l.foldlM w s) (l.flatMap encode) := by
  induction l with
  | nil => exact Appends.pure
  | cons a l ih =>
    have hrest := ih fun b hb => h b (List.mem_cons_of_mem a hb)
    simpa using (h a List.mem_cons_self).bind hrest

end BoundedSink
