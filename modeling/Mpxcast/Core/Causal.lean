import Mpxcast.Core.DelayLine
import Mpxcast.Core.Loop

/-!
# Causal functions of streams

What such a function makes of a stream only grows when the stream does, so that a stream may be
handed over in blocks: every block is answered with what it adds. Compositions of causal functions
are causal, and the answers compose in the same way.
-/

variable {α β γ : Type*}

/-- What was put out is never taken back. -/
def Causal (f : List α → List β) : Prop := ∀ history input, f history <+: f (history ++ input)

namespace Causal

/-- What `input` adds behind a history. -/
def since (f : List α → List β) (history input : List α) : List β :=
  (f (history ++ input)).drop (f history).length

variable {f g : List α → List β}

lemma append_since (hf : Causal f) (history input : List α) :
    f history ++ since f history input = f (history ++ input) := by
  obtain ⟨added, hadded⟩ := hf history input
  rw [since, ← hadded, List.drop_left]

/-- What is added is determined by the whole. -/
lemma since_eq {history input : List α} {added : List β}
    (h : f (history ++ input) = f history ++ added) : since f history input = added := by
  rw [since, h, List.drop_left]

lemma of_append (h : ∀ history input, ∃ added, f (history ++ input) = f history ++ added) :
    Causal f := by
  intro history input
  obtain ⟨added, hadded⟩ := h history input
  exact ⟨added, hadded.symm⟩

lemma since_append (hf : Causal f) (history xs ys : List α) :
    since f history (xs ++ ys) = since f history xs ++ since f (history ++ xs) ys := by
  refine since_eq ?_
  rw [← List.append_assoc, ← append_since hf (history ++ xs), ← append_since hf history,
    List.append_assoc]

lemma since_nil (history : List α) : since f history [] = [] := by
  rw [since, List.append_nil, List.drop_length]

/-- From the start of the stream on. -/
lemma since_start (h : f [] = []) (xs : List α) : since f [] xs = f xs := by
  rw [since, h]
  rfl

/-- What is put out early on stays, whatever follows. -/
lemma getElem?_of_early (hf : Causal f) {early xs : List α} (hxs : early <+: xs) {n : ℕ} {b : β}
    (h : (f early)[n]? = some b) : (f xs)[n]? = some b := by
  obtain ⟨rest, rfl⟩ := hxs
  rw [← append_since hf, List.getElem?_append_left (List.getElem?_eq_some_iff.1 h).1]
  exact h

/-! ### Composition -/

lemma comp {f : List β → List γ} {g : List α → List β} (hf : Causal f) (hg : Causal g) :
    Causal fun xs => f (g xs) := by
  intro history input
  obtain ⟨added, hadded⟩ := hg history input
  show f (g history) <+: f (g (history ++ input))
  rw [← hadded]
  exact hf _ _

/-- The inner function answers first, and the outer one answers that. -/
lemma since_comp {f : List β → List γ} {g : List α → List β} (hg : Causal g)
    (history input : List α) :
    since (fun xs => f (g xs)) history input = since f (g history) (since g history input) := by
  rw [since, since, append_since hg]

lemma map (h : α → β) : Causal (List.map h) := fun _ input =>
  ⟨input.map h, (List.map_append).symm⟩

lemma since_map (h : α → β) (history input : List α) :
    since (List.map h) history input = input.map h :=
  since_eq List.map_append

lemma flatten : Causal (List.flatten : List (List β) → List β) := fun _ input =>
  ⟨input.flatten, List.flatten_append.symm⟩

lemma since_flatten (history input : List (List β)) :
    since List.flatten history input = input.flatten :=
  since_eq List.flatten_append

/-- Two streams of one length, sample by sample. -/
lemma zipWith {δ : Type*} {f : List α → List β} {g : List α → List δ} (hf : Causal f)
    (hg : Causal g) (hlength : ∀ xs, (f xs).length = (g xs).length) (h : β → δ → γ) :
    Causal fun xs => List.zipWith h (f xs) (g xs) := by
  refine of_append fun history input =>
    ⟨List.zipWith h (since f history input) (since g history input), ?_⟩
  rw [← append_since hf, ← append_since hg, List.zipWith_append (hlength _)]

lemma since_zipWith {δ : Type*} {f : List α → List β} {g : List α → List δ} (hf : Causal f)
    (hg : Causal g) (hlength : ∀ xs, (f xs).length = (g xs).length) (h : β → δ → γ)
    (history input : List α) :
    since (fun xs => List.zipWith h (f xs) (g xs)) history input
      = List.zipWith h (since f history input) (since g history input) := by
  refine since_eq ?_
  rw [← append_since hf, ← append_since hg, List.zipWith_append (hlength _)]

/-- Decimation is causal, and a block is answered with the outputs that are due in it. -/
lemma due (factor : ℕ) (out : List α → β) : Causal (DelayLine.due factor out []) :=
  of_append fun history input => ⟨_, DelayLine.due_append [] history input⟩

lemma since_due (factor : ℕ) (out : List α → β) (history input : List α) :
    since (DelayLine.due factor out []) history input = DelayLine.due factor out history input :=
  since_eq (DelayLine.due_append [] history input)

/-! ### Successive entries -/

/-- Each entry next to the one before it; `prev` comes before the first. -/
def successive (h : α → α → β) (prev : α) (xs : List α) : List β :=
  List.zipWith h (prev :: xs) xs

@[simp] lemma length_successive (h : α → α → β) (prev : α) (xs : List α) :
    (successive h prev xs).length = xs.length := by
  simp [successive]

@[simp] lemma successive_cons (h : α → α → β) (prev x : α) (xs : List α) :
    successive h prev (x :: xs) = h prev x :: successive h x xs := rfl

lemma successive_append (h : α → α → β) (prev : α) (xs ys : List α) :
    successive h prev (xs ++ ys) = successive h prev xs ++ successive h (xs.getLastD prev) ys := by
  induction xs generalizing prev with
  | nil => rfl
  | cons x xs ih =>
    rw [List.cons_append, successive_cons, ih, successive_cons, List.getLastD_cons,
      List.cons_append]

lemma getElem?_successive {h : α → α → β} {prev x y : α} {xs : List α} {n : ℕ}
    (hx : (prev :: xs)[n]? = some x) (hy : xs[n]? = some y) :
    (successive h prev xs)[n]? = some (h x y) :=
  List.getElem?_zipWith_eq_some.2 ⟨x, y, hx, hy, rfl⟩

/-! ### Blocks -/

/-- The answers to the blocks of a stream are the answers to the stream. -/
lemma flatten_answers (hf : Causal f) (blocks : List (List α)) :
    ∀ history : List α, (Loop.answers (since f) (· ++ ·) history blocks).flatten
      = since f history blocks.flatten := by
  induction blocks with
  | nil => exact fun history => (since_nil history).symm
  | cons block blocks ih =>
    intro history
    rw [Loop.answers, List.flatten_cons, List.flatten_cons, since_append hf, ih]

/-- Calls that answer every block with what it adds compute the function of the whole stream. -/
theorem calls_compute {σ ι : Type*} {call : σ → ι → Option (σ × List β)} (hf : Causal f)
    (hstart : f [] = []) (block : ι → List α) (R : σ → List α → Prop)
    (hcall : ∀ s history i, R s history →
      ∃ t, call s i = some (t, since f history (block i)) ∧ R t (history ++ block i))
    {s : σ} (hs : R s []) (is : List ι) :
    ∃ t outputs, Loop.calls call s is = some (t, outputs) ∧
      outputs = Loop.answers (since f) (· ++ ·) [] (is.map block) ∧
      outputs.flatten = f (is.flatMap block) ∧ R t (is.flatMap block) := by
  have hrefine : ∃ t, Loop.calls call s is
        = some (t, Loop.answers (fun history i => since f history (block i))
            (fun history i => history ++ block i) [] is) ∧
      R t (is.foldl (fun history i => history ++ block i) []) :=
    Loop.calls_refine R (fun _ => True)
      (fun s history i hR _ => hcall s history i hR) is hs fun _ _ => trivial
  obtain ⟨t, hcalls, ht⟩ := hrefine
  have hanswers : ∀ history, Loop.answers (fun history i => since f history (block i))
      (fun history i => history ++ block i) history is
        = Loop.answers (since f) (· ++ ·) history (is.map block) := by
    clear hcalls ht
    induction is with
    | nil => exact fun _ => rfl
    | cons i is ih =>
      intro history
      rw [Loop.answers, List.map_cons, Loop.answers, ih]
  have hhistory : ∀ history : List α, is.foldl (fun history i => history ++ block i) history
      = history ++ is.flatMap block := by
    clear hcalls ht hanswers
    induction is with
    | nil => exact fun history => (List.append_nil history).symm
    | cons i is ih =>
      intro history
      rw [List.foldl_cons, ih, List.flatMap_cons, List.append_assoc]
  refine ⟨t, _, hcalls, hanswers [], ?_, ?_⟩
  · rw [hanswers, flatten_answers hf, ← List.flatMap_def, since_start hstart]
  · rw [hhistory, List.nil_append] at ht
    exact ht

end Causal
