import TdRevent.Interaction.Parts

/-!
# The runs of a part within the runs of the whole

The whole uses a part through the calls of the part alone, at any time and with
other code and other questions in between. Every run of the whole is then, as the
part sees it, a run of the part: the callbacks of the other parts are moments at
which its user code runs. What holds of all runs of the part therefore holds of
all runs of the whole.

## Implementation notes

One move of the whole may end a call of the part and start the next, so it is a
run of several moves there.
-/

namespace Interaction

variable {σ τ υ κ κ' κ'' α γ β β' Op Op' : Type} {ρ : κ → Type} {ρ' : κ' → Type} {ρ'' : κ'' → Type}

/-- Code of the whole that changes the part only by calls of `S'`. A call may go on
with a result that the call of the part drops. -/
inductive Part.Woven (P : Part σ τ ρ ρ') (S' : System τ ρ' Op' β') : Code σ ρ β → σ → Prop
  | ret (a : β) (s : σ) : Woven P S' (.ret a) s
  | get {next s} (h : Woven P S' (next s) s) : Woven P S' (.get next) s
  | put {t next s} (ht : P.get t = P.get s) (h : Woven P S' next t) : Woven P S' (.put t next) s
  | ask {q next s} (hq : ∀ q', q ≠ P.question q') (h : ∀ r t, Woven P S' (next r) t) :
      Woven P S' (.ask q next) s
  | call {γ : Type} {s} (op : Op') (c : Code τ ρ' γ) (g : γ → β') (rest : γ → Code σ ρ β)
      (hc : S'.api op = c.bind fun a => .ret (g a)) (hmay : S'.may (P.get s) op)
      (h : ∀ a t, Woven P S' (rest a) t) : Woven P S' ((c.within P).bind rest) s

/-- The open questions of the part among those of the whole. -/
inductive Part.Stacks (P : Part σ τ ρ ρ') (S' : System τ ρ' Op' β') :
    List (Frame σ ρ β) → List (Frame τ ρ' β') → Prop
  | nil : Stacks P S' [] []
  | skip {q next fs fs'} (hq : ∀ q', q ≠ P.question q') (hnext : ∀ r t, P.Woven S' (next r) t)
      (h : Stacks P S' fs fs') : Stacks P S' (⟨q, next⟩ :: fs) fs'
  | keep {γ : Type} {q fs fs'} (c : ρ' q → Code τ ρ' γ) (g : γ → β') (rest : γ → Code σ ρ β)
      (hrest : ∀ a t, P.Woven S' (rest a) t) (h : Stacks P S' fs fs') :
      Stacks P S' (⟨P.question q, fun r => ((c (P.reply q r)).within P).bind rest⟩ :: fs)
        (⟨q, fun r => (c r).bind fun a => .ret (g a)⟩ :: fs')

/-- The part has its state and its open questions in the configuration. Only the
latest question may be one that is answered at once. -/
structure Part.Shows (P : Part σ τ ρ ρ') (S : System σ ρ Op β) (S' : System τ ρ' Op' β')
    (c : Config σ ρ β) (c' : Config τ ρ' β') : Prop where
  state : c'.state = P.get c.state
  stack : P.Stacks S' c.stack c'.stack
  below : ∀ f ∈ c.stack.tail, S.user f.question

/-- The whole uses the part through its calls, and its environment answers the
questions of the part as the environment of the part does. -/
structure Part.Projects (P : Part σ τ ρ ρ') (S : System σ ρ Op β) (S' : System τ ρ' Op' β') :
    Prop where
  api : ∀ op s, S.may s op → P.Woven S' (S.api op) s
  user : ∀ q, S.user (P.question q) ↔ S'.user q
  answer : ∀ q s r t, S.answer (P.question q) s r t →
    S'.answer q (P.get s) (P.reply q r) (P.get t)
  other : ∀ q s r t, (∀ q', q ≠ P.question q') → S.answer q s r t → P.get t = P.get s

namespace Part

variable {P : Part σ τ ρ ρ'} {S : System σ ρ Op β} {S' : System τ ρ' Op' β'}

/-- The code of another part leaves the part alone. -/
theorem Woven.other {Q : Part σ υ ρ ρ''} (hset : ∀ u s, P.get (Q.set u s) = P.get s)
    (hquestion : ∀ q q', Q.question q ≠ P.question q') (c : Code υ ρ'' γ)
    {rest : γ → Code σ ρ β} (hrest : ∀ a t, P.Woven S' (rest a) t) (s : σ) :
    P.Woven S' ((c.within Q).bind rest) s := by
  induction c generalizing s with
  | ret a => exact hrest a s
  | get next ih => exact .get (ih _ s)
  | put u next ih => exact .get (.put (hset u s) (ih _))
  | ask q next ih => exact .ask (hquestion q) fun r t => ih _ t

/-- A call of the whole that is the code of another part. -/
theorem Woven.other_call {Q : Part σ υ ρ ρ''} (hset : ∀ u s, P.get (Q.set u s) = P.get s)
    (hquestion : ∀ q q', Q.question q ≠ P.question q') (c : Code υ ρ'' β) (s : σ) :
    P.Woven S' (c.within Q) s := by
  have hc : c.within Q = (c.within Q).bind .ret := (bind_pure (c.within Q)).symm
  rw [hc]
  exact .other hset hquestion c (fun a t => .ret a t) s

/-- A call of the whole that is a call of the part. -/
theorem Woven.same_call {S' : System τ ρ' Op' β} {op : Op'} {s : σ} (hmay : S'.may (P.get s) op) :
    P.Woven S' ((S'.api op).within P) s := by
  have hc : (S'.api op).within P = ((S'.api op).within P).bind .ret :=
    (bind_pure ((S'.api op).within P)).symm
  rw [hc]
  exact .call op (S'.api op) id .ret (bind_pure (S'.api op)).symm hmay fun a t => .ret a t

/-- Where all open questions are to the user, so is the latest one of the part. -/
theorem Stacks.isOpen (hproj : P.Projects S S') {fs : List (Frame σ ρ β)}
    {fs' : List (Frame τ ρ' β')} (h : P.Stacks S' fs fs')
    (huser : ∀ f ∈ fs, S.user f.question) : S'.Open fs' := by
  induction h with
  | nil => exact trivial
  | skip _ _ _ ih => exact ih fun f hf => huser f (List.mem_cons_of_mem _ hf)
  | keep _ _ _ _ _ _ => exact (hproj.user _).mp (huser _ List.mem_cons_self)

/-- A call of the part runs up to its next question, or ends and the whole goes on. -/
theorem start_within (c : Code τ ρ' γ) (g : γ → β') {rest : γ → Code σ ρ β} {s : σ}
    {fs : List (Frame σ ρ β)} {fs' : List (Frame τ ρ' β')} (hstacks : P.Stacks S' fs fs')
    (huser : ∀ f ∈ fs, S.user f.question) (hrest : ∀ a t, P.Woven S' (rest a) t)
    (hgo : ∀ a t, ∃ ms d', S'.Run ⟨P.get t, fs'⟩ ms d' ∧ P.Shows S S' ((rest a).start t fs) d') :
    ∃ ms d', S'.Run ((c.bind fun a => .ret (g a)).start (P.get s) fs') ms d' ∧
      P.Shows S S' (((c.within P).bind rest).start s fs) d' := by
  induction c generalizing s with
  | ret a => exact hgo a s
  | get next ih => exact ih (P.get s)
  | put u next ih =>
      obtain ⟨ms, d', hrun, hshows⟩ := ih (s := P.set u s)
      rw [P.get_set] at hrun
      exact ⟨ms, d', hrun, hshows⟩
  | ask q next _ => exact ⟨[], _, .nil _, rfl, .keep next g rest hrest hstacks, huser⟩

/-- Code of the whole runs up to its next question. -/
theorem Woven.start (hproj : P.Projects S S') {c : Code σ ρ β} {s : σ} (h : P.Woven S' c s)
    {fs : List (Frame σ ρ β)} {fs' : List (Frame τ ρ' β')} (hstacks : P.Stacks S' fs fs')
    (huser : ∀ f ∈ fs, S.user f.question) :
    ∃ ms d', S'.Run ⟨P.get s, fs'⟩ ms d' ∧ P.Shows S S' (c.start s fs) d' := by
  have htail : ∀ f ∈ fs.tail, S.user f.question := fun f hf => huser f (List.mem_of_mem_tail hf)
  induction h with
  | ret a s => exact ⟨[], _, .nil _, rfl, hstacks, htail⟩
  | get _ ih => exact ih
  | put ht _ ih =>
      rw [← ht]
      exact ih
  | ask hq h _ => exact ⟨[], _, .nil _, rfl, .skip hq h hstacks, huser⟩
  | call op c g rest hc hmay h ih =>
      obtain ⟨ms, d', hrun, hshows⟩ := start_within (S := S) c g hstacks huser h ih
      have hstep := System.Step.call (S := S') op (hstacks.isOpen hproj huser) hmay
      rw [hc] at hstep
      exact ⟨_, d', .cons hstep hrun, hshows⟩

namespace Projects

variable (hproj : P.Projects S S')

include hproj

theorem step {c d : Config σ ρ β} {c' : Config τ ρ' β'} {m : Move ρ Op}
    (hshows : P.Shows S S' c c') (hstep : S.Step c m d) :
    ∃ ms d', S'.Run c' ms d' ∧ P.Shows S S' d d' := by
  obtain ⟨s', fs'⟩ := c'
  obtain ⟨rfl, hstacks, hbelow⟩ := hshows
  cases hstep with
  | @call s fs op hopen hmay =>
      refine (hproj.api op _ hmay).start hproj hstacks ?_
      cases fs with
      | nil => exact nofun
      | cons f fs => exact List.forall_mem_cons.mpr ⟨hopen, hbelow⟩
  | answer r hanswer =>
      cases hstacks with
      | skip hq hnext hstacks =>
          have hsame := hproj.other _ _ _ _ hq hanswer
          obtain ⟨ms, d', hrun, hshows⟩ := (hnext r _).start hproj hstacks hbelow
          rw [hsame] at hrun
          exact ⟨ms, d', hrun, hshows⟩
      | @keep _ q _ fs' c g rest hrest hstacks =>
          have hanswer' := hproj.answer q _ r _ hanswer
          obtain ⟨ms, d', hrun, hshows⟩ := start_within (S := S) (c (P.reply q r)) g hstacks hbelow
            hrest fun a t => (hrest a t).start hproj hstacks hbelow
          exact ⟨_, d', .cons (.answer _ hanswer') hrun, hshows⟩

theorem run {c d : Config σ ρ β} {c' : Config τ ρ' β'} {ms : List (Move ρ Op)}
    (hrun : S.Run c ms d) (hshows : P.Shows S S' c c') :
    ∃ ms' d', S'.Run c' ms' d' ∧ P.Shows S S' d d' := by
  induction hrun generalizing c' with
  | nil c => exact ⟨[], c', .nil c', hshows⟩
  | cons hstep _ ih =>
      obtain ⟨ms, d', hrun, hshows⟩ := hproj.step hshows hstep
      obtain ⟨ms', e', hrun', hshows⟩ := ih hshows
      exact ⟨ms ++ ms', e', hrun.append hrun', hshows⟩

/-- What the whole reaches, the part reaches alone. -/
theorem reaches {s : σ} {c : Config σ ρ β} (h : S.Reaches s c) :
    ∃ c', S'.Reaches (P.get s) c' ∧ P.Shows S S' c c' := by
  obtain ⟨ms, hrun⟩ := h
  have hstart : P.Shows S S' ⟨s, []⟩ ⟨P.get s, []⟩ := ⟨rfl, .nil, nofun⟩
  obtain ⟨ms', c', hrun', hshows⟩ := hproj.run hrun hstart
  exact ⟨c', ⟨ms', hrun'⟩, hshows⟩

/-- Where user code of the whole runs, user code of the part runs. -/
theorem isOpen {c : Config σ ρ β} {c' : Config τ ρ' β'} (hshows : P.Shows S S' c c')
    (hopen : S.Open c.stack) : S'.Open c'.stack := by
  refine hshows.stack.isOpen hproj ?_
  obtain ⟨s, fs⟩ := c
  cases fs with
  | nil => exact nofun
  | cons f fs => exact List.forall_mem_cons.mpr ⟨hopen, hshows.below⟩

end Projects

end Part

end Interaction
