import AniChat.Automata.Machine
import AniChat.Collections.Dictionary

/-!
# Boards

What a service that passes on posts is for, without a network: records are posted under keys, and
each subscriber is shown the records it wants, each once, in an order of its own.

## What is proved

- `sound_run`: a subscriber was shown only posted records that it wants, none twice.
- `grows_run`: what is posted stays, and what a subscriber was shown stays, in its order.

Nothing here names a program.
-/

namespace AniChat.Automata

open Collections

variable {κ ρ ι χ : Type*}

/-- A subscriber: what it is interested in, and the keys of what it was shown. -/
structure Subscriber (κ χ : Type*) where
  interest : χ
  shown : List κ

structure Board (κ ρ ι χ : Type*) where
  posted : κ → Option ρ
  subscribers : ι → Option (Subscriber κ χ)

namespace Board

/-- Nothing posted, and nobody there. -/
def empty : Board κ ρ ι χ := ⟨fun _ => none, fun _ => none⟩

inductive Event (κ ρ ι χ : Type*) where
  | post (k : κ) (record : ρ)
  | subscribe (i : ι) (interest : χ)
  | deliver (i : ι) (k : κ)

variable [DecidableEq κ] [DecidableEq ι] (Wants : χ → ρ → Prop) [∀ c r, Decidable (Wants c r)]

/-- A key is posted once, a subscriber subscribes once, and a record is delivered once. -/
def step (b : Board κ ρ ι χ) : Event κ ρ ι χ → Option (Board κ ρ ι χ)
  | .post k record =>
    match b.posted k with
    | some _ => none
    | none => some { b with posted := Function.update b.posted k (some record) }
  | .subscribe i interest =>
    match b.subscribers i with
    | some _ => none
    | none =>
      some { b with subscribers := Function.update b.subscribers i (some ⟨interest, []⟩) }
  | .deliver i k =>
    match b.subscribers i, b.posted k with
    | some s, some record =>
      if Wants s.interest record ∧ k ∉ s.shown then
        some { b with
          subscribers := Function.update b.subscribers i (some { s with shown := s.shown ++ [k] }) }
      else none
    | _, _ => none

/-- A board, by the wants of its subscribers. -/
def machine : Machine (Board κ ρ ι χ) (Event κ ρ ι χ) := ⟨step Wants⟩

/-- What one event can do. -/
inductive Step (b : Board κ ρ ι χ) : Event κ ρ ι χ → Board κ ρ ι χ → Prop where
  | post {k record} (fresh : b.posted k = none) :
      Step b (.post k record) { b with posted := Function.update b.posted k (some record) }
  | subscribe {i interest} (new : b.subscribers i = none) : Step b (.subscribe i interest)
      { b with subscribers := Function.update b.subscribers i (some ⟨interest, []⟩) }
  | deliver {i k s record} (subscribed : b.subscribers i = some s)
      (posted : b.posted k = some record) (wants : Wants s.interest record) (first : k ∉ s.shown) :
      Step b (.deliver i k)
        { b with
          subscribers := Function.update b.subscribers i (some { s with shown := s.shown ++ [k] }) }

variable {Wants} {b b' : Board κ ρ ι χ} {e : Event κ ρ ι χ} {es : List (Event κ ρ ι χ)}

theorem step_cases (h : (machine Wants).step b e = some b') : Step Wants b e b' := by
  change step Wants b e = some b' at h
  cases e with
  | post k record =>
    simp only [step] at h
    split at h
    · cases h
    · next fresh => cases h; exact .post fresh
  | subscribe i interest =>
    simp only [step] at h
    split at h
    · cases h
    · next new => cases h; exact .subscribe new
  | deliver i k =>
    simp only [step] at h
    split at h
    · next s record hs hrecord =>
      split at h
      · next hg => cases h; exact .deliver hs hrecord hg.1 hg.2
      · cases h
    · cases h

/-! ## What is posted and shown stays -/

/-- Everything on one board is on the other. -/
structure Grows (b b' : Board κ ρ ι χ) : Prop where
  posted : ∀ k record, b.posted k = some record → b'.posted k = some record
  subscribers : ∀ i s, b.subscribers i = some s →
    ∃ s', b'.subscribers i = some s' ∧ s'.interest = s.interest ∧ s.shown <+: s'.shown

omit [DecidableEq κ] [DecidableEq ι] in
theorem Grows.refl (b : Board κ ρ ι χ) : b.Grows b where
  posted _ _ h := h
  subscribers _ s h := ⟨s, h, rfl, List.prefix_refl _⟩

omit [DecidableEq κ] [DecidableEq ι] in
theorem Grows.trans {a b c : Board κ ρ ι χ} (h : a.Grows b) (h' : b.Grows c) : a.Grows c where
  posted k record hk := h'.posted k record (h.posted k record hk)
  subscribers i s hs := by
    obtain ⟨s₁, hs₁, hinterest₁, hshown₁⟩ := h.subscribers i s hs
    obtain ⟨s₂, hs₂, hinterest₂, hshown₂⟩ := h'.subscribers i s₁ hs₁
    exact ⟨s₂, hs₂, hinterest₂.trans hinterest₁, hshown₁.trans hshown₂⟩

theorem grows_step (h : (machine Wants).step b e = some b') : b.Grows b' := by
  cases step_cases h with
  | @post k record fresh =>
    refine ⟨fun k' record' hk' => ?_, fun i s hs => ⟨s, hs, rfl, List.prefix_refl _⟩⟩
    have hne : k' ≠ k := by
      intro he
      rw [he, fresh] at hk'
      cases hk'
    exact (Function.update_of_ne hne ..).trans hk'
  | @subscribe i interest new =>
    refine ⟨fun _ _ hk => hk, fun i' s hs => ⟨s, ?_, rfl, List.prefix_refl _⟩⟩
    have hne : i' ≠ i := by
      intro he
      rw [he, new] at hs
      cases hs
    exact (Function.update_of_ne hne ..).trans hs
  | @deliver i k s record subscribed posted wants first =>
    refine ⟨fun _ _ hk => hk, fun i' s' hs' => ?_⟩
    by_cases hi : i' = i
    · subst hi
      cases subscribed.symm.trans hs'
      exact ⟨_, Function.update_self .., rfl, List.prefix_append _ _⟩
    · exact ⟨s', (Function.update_of_ne hi ..).trans hs', rfl, List.prefix_refl _⟩

/-- **Nothing is taken back**, and nothing shown is moved. -/
theorem grows_run (h : (machine Wants).run b es = some b') : b.Grows b' :=
  Machine.run_invariant (P := fun c => b.Grows c) (fun _ _ _ hc hstep => hc.trans (grows_step hstep))
    (Grows.refl b) h

/-! ## What is shown is wanted -/

/-- A subscriber was shown posted records that it wants, none twice. -/
def Sound (Wants : χ → ρ → Prop) (b : Board κ ρ ι χ) : Prop :=
  ∀ i s, b.subscribers i = some s → s.shown.Nodup ∧
    ∀ k ∈ s.shown, ∃ record, b.posted k = some record ∧ Wants s.interest record

theorem sound_step (h : Sound Wants b) (hstep : (machine Wants).step b e = some b') :
    Sound Wants b' := by
  have grows := grows_step hstep
  intro i s hs
  -- a subscriber that was there, and what it was shown before
  have old : ∀ {s₀ : Subscriber κ χ}, b.subscribers i = some s₀ → s₀.shown.Nodup ∧
      ∀ k ∈ s₀.shown, ∃ record, b'.posted k = some record ∧ Wants s₀.interest record := by
    intro s₀ hs₀
    obtain ⟨hnodup, hposted⟩ := h i s₀ hs₀
    refine ⟨hnodup, fun k hk => ?_⟩
    obtain ⟨record, hrecord, hwants⟩ := hposted k hk
    exact ⟨record, grows.posted k record hrecord, hwants⟩
  cases step_cases hstep with
  | post => exact old hs
  | subscribe =>
    rcases update_eq_some.mp hs with ⟨rfl, rfl⟩ | ⟨-, hold⟩
    · exact ⟨List.nodup_nil, fun k hk => (List.not_mem_nil hk).elim⟩
    · exact old hold
  | @deliver i' k s' record subscribed posted wants first =>
    rcases update_eq_some.mp hs with ⟨rfl, rfl⟩ | ⟨-, hold⟩
    · obtain ⟨hnodup, hposted⟩ := old subscribed
      refine ⟨hnodup.append (List.nodup_singleton k) ?_, fun k' hk' => ?_⟩
      · intro k' hk' hk
        rw [List.mem_singleton.mp hk] at hk'
        exact first hk'
      · rcases List.mem_append.mp hk' with hk' | hk'
        · exact hposted k' hk'
        · rw [List.mem_singleton.mp hk']
          exact ⟨record, posted, wants⟩
    · exact old hold

theorem sound_run (h : (machine Wants).run empty es = some b) : Sound Wants b :=
  Machine.run_invariant (fun _ _ _ => sound_step) (fun _ _ hs => by cases hs) h

end Board

end AniChat.Automata
