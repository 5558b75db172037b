import Mpxcast.Core.Lts

/-!
# Publish/subscribe with private mailboxes

The purpose of a fan-out queue, with no sharing in it: every subscriber of a topic owns an unbounded
mailbox, publishing appends to the mailboxes of the topic, receiving takes the oldest message. A
subscription may be cancelled at any time, unread messages included.

Over any run a subscriber receives a prefix of what was published to its topic after it subscribed.
-/

namespace PubSub

variable {ι τ α : Type*}

/-- Each subscriber's topic and unread messages. -/
abbrev State (ι τ α : Type*) := ι → Option (τ × List α)

inductive Label (ι τ α : Type*)
  | subscribe (i : ι) (t : τ)
  | publish (t : τ) (x : α)
  | receive (i : ι) (x : α)
  | cancel (i : ι)

/-- The mailboxes after `x` was published to `t`. -/
def deliver [DecidableEq τ] (s : State ι τ α) (t : τ) (x : α) : State ι τ α := fun i =>
  (s i).map fun b => if b.1 = t then (b.1, b.2 ++ [x]) else b

inductive Step [DecidableEq ι] [DecidableEq τ] : State ι τ α → Label ι τ α → State ι τ α → Prop
  | subscribe (s : State ι τ α) (i : ι) (t : τ) :
      Step s (.subscribe i t) (Function.update s i (some (t, [])))
  | publish (s : State ι τ α) (t : τ) (x : α) : Step s (.publish t x) (deliver s t x)
  | receive {s : State ι τ α} {i : ι} {t : τ} {x : α} {m : List α} :
      s i = some (t, x :: m) → Step s (.receive i x) (Function.update s i (some (t, m)))
  | cancel (s : State ι τ α) (i : ι) : Step s (.cancel i) (Function.update s i none)

/-- The system starts without subscribers. -/
def lts [DecidableEq ι] [DecidableEq τ] : Lts (State ι τ α) (Label ι τ α) where
  init s := ∀ i, s i = none
  step := Step

section published
variable [DecidableEq τ]

/-- The messages published to `t`, oldest first. -/
def published (t : τ) (ls : List (Label ι τ α)) : List α :=
  ls.filterMap fun
    | .publish t' x => if t' = t then some x else none
    | _ => none

@[simp] lemma published_nil (t : τ) : published t ([] : List (Label ι τ α)) = [] := rfl

@[simp] lemma published_append (t : τ) (ls ls' : List (Label ι τ α)) :
    published t (ls ++ ls') = published t ls ++ published t ls' := by
  simp [published]

@[simp] lemma published_cancel (t : τ) (is : List ι) :
    published t (is.map fun i => (.cancel i : Label ι τ α)) = [] := by
  simp [published, List.filterMap_map]

lemma published_cons (t : τ) (l : Label ι τ α) (ls : List (Label ι τ α)) :
    published t (l :: ls) = published t [l] ++ published t ls :=
  published_append t [l] ls

end published

section received
variable [DecidableEq ι]

/-- The messages `i` received, oldest first. -/
def received (i : ι) (ls : List (Label ι τ α)) : List α :=
  ls.filterMap fun
    | .receive i' x => if i' = i then some x else none
    | _ => none

@[simp] lemma received_nil (i : ι) : received i ([] : List (Label ι τ α)) = [] := rfl

@[simp] lemma received_append (i : ι) (ls ls' : List (Label ι τ α)) :
    received i (ls ++ ls') = received i ls ++ received i ls' := by
  simp [received]

@[simp] lemma received_cancel (i : ι) (is : List ι) :
    received i (is.map fun j => (.cancel j : Label ι τ α)) = [] := by
  simp [received, List.filterMap_map]

lemma received_cons (i : ι) (l : Label ι τ α) (ls : List (Label ι τ α)) :
    received i (l :: ls) = received i [l] ++ received i ls :=
  received_append i [l] ls

end received

variable [DecidableEq ι] [DecidableEq τ]

/-- Several subscriptions are cancelled one after the other. -/
lemma run_cancel (s : State ι τ α) (is : List ι) :
    lts.Run s (is.map .cancel) fun i => if i ∈ is then none else s i := by
  induction is generalizing s with
  | nil => simp
  | cons j is ih =>
    have hrest := ih (Function.update s j none)
    have hsame : (fun i => if i ∈ is then none else Function.update s j none i)
        = fun i => if i ∈ j :: is then none else s i := by
      funext i
      by_cases hij : i = j <;> simp [hij]
    rw [hsame] at hrest
    exact .cons (.cancel s j) hrest

/-- One step seen by a subscriber: unless it is cancelled, what it received and still holds is what
it held and what was published to its topic. -/
lemma Step.mailbox {s s' : State ι τ α} {l : Label ι τ α} (h : Step s l s') {i : ι} {t : τ}
    {m : List α} (hi : s i = some (t, m)) (hsub : ∀ t', l ≠ .subscribe i t') :
    (s' i = none ∧ received i [l] = []) ∨
      ∃ m', s' i = some (t, m') ∧ received i [l] ++ m' = m ++ published t [l] := by
  cases h with
  | subscribe j t' =>
    have hij : i ≠ j := fun heq => hsub t' (by rw [heq])
    exact .inr ⟨m, by simp [hij, hi], by simp [received, published]⟩
  | publish t' x =>
    right
    by_cases ht : t = t'
    · exact ⟨m ++ [x], by simp [deliver, hi, ht], by simp [received, published, ht]⟩
    · exact ⟨m, by simp [deliver, hi, ht], by simp [received, published, Ne.symm ht]⟩
  | @receive j t' x m' hj =>
    right
    by_cases hij : i = j
    · subst hij
      obtain ⟨rfl, rfl⟩ : t' = t ∧ x :: m' = m := by simpa using hj.symm.trans hi
      exact ⟨m', by simp, by simp [received, published]⟩
    · exact ⟨m, by simp [hij, hi], by simp [received, published, Ne.symm hij]⟩
  | cancel j =>
    by_cases hij : i = j
    · exact .inl ⟨by simp [hij], by simp [received]⟩
    · exact .inr ⟨m, by simp [hij, hi], by simp [received, published]⟩

/-- One step seen by someone without a subscription. -/
lemma Step.unsubscribed {s s' : State ι τ α} {l : Label ι τ α} (h : Step s l s') {i : ι}
    (hi : s i = none) (hsub : ∀ t', l ≠ .subscribe i t') : s' i = none ∧ received i [l] = [] := by
  cases h with
  | subscribe j t' =>
    have hij : i ≠ j := fun heq => hsub t' (by rw [heq])
    exact ⟨by simp [hij, hi], by simp [received]⟩
  | publish t' x => exact ⟨by simp [deliver, hi], by simp [received]⟩
  | @receive j t' x m' hj =>
    have hij : i ≠ j := by
      rintro rfl
      simp [hi] at hj
    exact ⟨by simp [hij, hi], by simp [received, Ne.symm hij]⟩
  | cancel j =>
    by_cases hij : i = j <;> simp [hij, hi, received, Function.update]

/-- Without a subscription nothing is ever received. -/
theorem received_of_unsubscribed {s s' : State ι τ α} {ls : List (Label ι τ α)}
    (h : lts.Run s ls s') {i : ι} (hi : s i = none) (hsub : ∀ t', .subscribe i t' ∉ ls) :
    s' i = none ∧ received i ls = [] := by
  induction h with
  | nil => exact ⟨hi, rfl⟩
  | @cons s t u l ls hl _ ih =>
    obtain ⟨ht, hr⟩ := Step.unsubscribed hl hi fun t' heq => hsub t' (by simp [heq])
    obtain ⟨hu, hrs⟩ := ih ht fun t' hm => hsub t' (by simp [hm])
    exact ⟨hu, by rw [received_cons, hr, hrs]; rfl⟩

/-- Gap-free delivery: as long as a subscription lasts, received and unread messages together are
those it held at first followed by those published since; after it was cancelled, the received ones
are a prefix of them. -/
theorem received_of_subscribed {s s' : State ι τ α} {ls : List (Label ι τ α)}
    (h : lts.Run s ls s') {i : ι} {t : τ} {m : List α} (hi : s i = some (t, m))
    (hsub : ∀ t', .subscribe i t' ∉ ls) :
    received i ls <+: m ++ published t ls ∧
      ∀ b, s' i = some b → b.1 = t ∧ received i ls ++ b.2 = m ++ published t ls := by
  induction h generalizing m with
  | nil => exact ⟨by simp, fun b hb => by simp_all⟩
  | @cons s u v l ls hl hrun ih =>
    rw [received_cons, published_cons]
    rcases Step.mailbox hl hi fun t' heq => hsub t' (by simp [heq]) with
      ⟨hu, hr⟩ | ⟨m', hu, hr⟩
    · obtain ⟨hv, hrs⟩ := received_of_unsubscribed hrun hu fun t' hm => hsub t' (by simp [hm])
      refine ⟨by simp [hr, hrs], fun b hb => ?_⟩
      simp [hv] at hb
    · obtain ⟨hpre, hend⟩ := ih hu fun t' hm => hsub t' (by simp [hm])
      rw [← List.append_assoc m, ← hr, List.append_assoc]
      refine ⟨List.prefix_append_right_inj _ |>.mpr hpre, fun b hb => ?_⟩
      obtain ⟨ht, heq⟩ := hend b hb
      exact ⟨ht, by rw [List.append_assoc, heq]⟩

end PubSub
