import TdRevent.Interaction.System

/-!
# Runs with a history

The history of a run holds the calls and those questions that are watched, in
order, each with the state at its time. A recorded run has the history beside
the state. The recorded runs are exactly the runs of the system, so what is an
invariant of states and histories holds of the history of every run.

## Implementation notes

Code that puts no watched question leaves the history alone. What is known of
such code needs no second proof.
-/

namespace Interaction

variable {σ κ β γ ε ι Op : Type} {ρ : κ → Type}

/-- An entry of a history, with the state at its time. -/
inductive Mark (σ κ Op : Type)
  | called (op : Op) (s : σ)
  | asked (q : κ) (s : σ)

abbrev History (σ κ Op : Type) := List (Mark σ κ Op)

/-- Add a question that is watched. -/
def History.ask (watch : κ → Bool) (q : κ) (s : σ) (h : History σ κ Op) : History σ κ Op :=
  bif watch q then h ++ [.asked q s] else h

/-- Some entry of the history names `i`. -/
def History.Names (f : Mark σ κ Op → Option ι) (h : History σ κ Op) (i : ι) : Prop :=
  ∃ m ∈ h, f m = some i

/-- What an entry ends is not started by a later entry. -/
def History.EndsLast (starts ends : Mark σ κ Op → Option ι) (h : History σ κ Op) : Prop :=
  h.Pairwise fun m m' => ∀ i, ends m = some i → starts m' ≠ some i

section

variable {f starts ends : Mark σ κ Op → Option ι} {h : History σ κ Op} {m : Mark σ κ Op} {i : ι}

@[simp] theorem History.not_names_nil : ¬ History.Names f [] i := nofun

@[simp] theorem History.names_snoc :
    History.Names f (h ++ [m]) i ↔ History.Names f h i ∨ f m = some i := by
  simp [History.Names, or_and_right, exists_or]

theorem History.endsLast_nil : History.EndsLast starts ends ([] : History σ κ Op) := .nil

/-- An entry is added that starts nothing that ended. -/
theorem History.EndsLast.snoc (hlast : h.EndsLast starts ends)
    (hm : ∀ i, starts m = some i → ¬ h.Names ends i) : EndsLast starts ends (h ++ [m]) := by
  refine List.pairwise_append.mpr ⟨hlast, List.pairwise_singleton .., ?_⟩
  intro m' hm' m'' hm'' i hends hstarts
  rw [List.mem_singleton.mp hm''] at hstarts
  exact hm i hstarts ⟨m', hm', hends⟩

end

/-- The code with a history beside its state. -/
def Code.record (watch : κ → Bool) : Code σ ρ γ → Code (σ × History σ κ Op) ρ γ
  | ret a => ret a
  | get next => get fun x => (next x.1).record watch
  | put t next => get fun x => put (t, x.2) (next.record watch)
  | ask q next =>
      get fun x => put (x.1, x.2.ask watch q x.1) (ask q fun r => (next r).record watch)

theorem Code.record_bind (watch : κ → Bool) (c : Code σ ρ γ) (f : γ → Code σ ρ ε) :
    ((c >>= f).record watch : Code (σ × History σ κ Op) ρ ε) =
      c.record watch >>= fun a => (f a).record watch := by
  change (c.bind f).record watch = (c.record watch).bind _
  induction c with
  | ret a => rfl
  | get next ih => exact congrArg Code.get (funext fun x => ih x.1)
  | put t next ih => exact congrArg Code.get (funext fun x => congrArg (Code.put _) ih)
  | ask q next ih =>
      exact congrArg Code.get (funext fun x =>
        congrArg (Code.put _) (congrArg (Code.ask q) (funext ih)))

/-- The configuration with a history beside its state. -/
def Config.record (watch : κ → Bool) (h : History σ κ Op) (c : Config σ ρ β) :
    Config (σ × History σ κ Op) ρ β :=
  ⟨(c.state, h), c.stack.map fun f => ⟨f.question, fun r => (f.resume r).record watch⟩⟩

/-- The history when the code comes to its end or to its next question. -/
def Code.history (watch : κ → Bool) : Code σ ρ γ → σ → History σ κ Op → History σ κ Op
  | ret _, _, h => h
  | get next, s, h => (next s).history watch s h
  | put t next, _, h => next.history watch t h
  | ask q _, s, h => h.ask watch q s

theorem Code.start_record (watch : κ → Bool) (c : Code σ ρ β) (s : σ) (h : History σ κ Op)
    (stack : List (Frame σ ρ β)) :
    (c.record watch).start (s, h) (Config.record watch h ⟨s, stack⟩).stack =
      (c.start s stack).record watch (c.history watch s h) := by
  induction c generalizing s with
  | ret a => rfl
  | get next ih => exact ih s s
  | put t next ih => exact ih t
  | ask q next _ => rfl

namespace System

/-- The system with a history beside its state. -/
def record (S : System σ ρ Op β) (watch : κ → Bool) :
    System (σ × History σ κ Op) ρ Op β where
  api op := .get fun x => .put (x.1, x.2 ++ [.called op x.1]) ((S.api op).record watch)
  user := S.user
  answer q x r y := S.answer q x.1 r y.1 ∧ y.2 = x.2
  may x op := S.may x.1 op

/-- Some run from the state `s` has the history `h` and ends in the configuration. -/
def Recorded (S : System σ ρ Op β) (watch : κ → Bool) (s : σ) (h : History σ κ Op)
    (c : Config σ ρ β) : Prop := (S.record watch).Reaches (s, []) (c.record watch h)

variable {S : System σ ρ Op β} {watch : κ → Bool}

theorem open_record {h : History σ κ Op} {c : Config σ ρ β} :
    (S.record watch).Open (c.record watch h).stack ↔ S.Open c.stack := by
  obtain ⟨s, stack⟩ := c
  cases stack <;> exact Iff.rfl

namespace Recorded

variable {s t u : σ} {h : History σ κ Op} {stack : List (Frame σ ρ β)}

theorem refl (s : σ) : S.Recorded watch s [] ⟨s, []⟩ := Reaches.refl _

theorem call (hrec : S.Recorded watch s h ⟨t, stack⟩) (op : Op) (hopen : S.Open stack)
    (hmay : S.may t op) :
    S.Recorded watch s ((S.api op).history watch t (h ++ [.called op t]))
      ((S.api op).start t stack) := by
  have hstep := Reaches.call hrec op ((open_record (h := h) (c := ⟨t, stack⟩)).mpr hopen) hmay
  unfold Recorded
  rw [← Code.start_record]
  exact hstep

theorem answer {q : κ} {next : ρ q → Code σ ρ β}
    (hrec : S.Recorded watch s h ⟨t, ⟨q, next⟩ :: stack⟩) (r : ρ q) (hanswer : S.answer q t r u) :
    S.Recorded watch s ((next r).history watch u h) ((next r).start u stack) := by
  have hstep := Reaches.answer hrec r (u := (u, h)) ⟨hanswer, rfl⟩
  unfold Recorded
  rw [← Code.start_record]
  exact hstep

end Recorded

/-- Every run has a history. -/
theorem Reaches.recorded {s : σ} {c : Config σ ρ β} (hreach : S.Reaches s c) :
    ∃ h, S.Recorded watch s h c := by
  obtain ⟨ms, hrun⟩ := hreach
  have hall : ∀ c d ms h, S.Run c ms d → S.Recorded watch s h c →
      ∃ h', S.Recorded watch s h' d := by
    intro c d ms h hrun
    induction hrun generalizing h with
    | nil c => exact fun hc => ⟨h, hc⟩
    | cons hstep _ ih =>
        intro hc
        cases hstep with
        | call op hopen hmay => exact ih _ (hc.call op hopen hmay)
        | answer r hanswer => exact ih _ (hc.answer r hanswer)
  exact hall _ _ ms [] hrun (.refl s)

end System

namespace Discipline

/-- An invariant that user code finds, and what holds at every other question. -/
def guarded (inv : σ → Prop) (guard : κ → σ → Prop) : Discipline σ ρ :=
  ⟨inv, fun _ _ => True, guard, fun _ => trivial, fun _ _ => trivial⟩

variable {inv : σ → History σ κ Op → Prop} {guard : κ → σ → History σ κ Op → Prop}
  {S : System σ ρ Op β} {watch : κ → Bool} {s : σ} {h : History σ κ Op}

/-- The code keeps the invariant of states and histories when it is recorded,
and ends with `Q`. -/
def Records (inv : σ → History σ κ Op → Prop) (guard : κ → σ → History σ κ Op → Prop)
    (S : System σ ρ Op β) (watch : κ → Bool) (c : Code σ ρ γ)
    (Q : γ → σ → History σ κ Op → Prop) (s : σ) (h : History σ κ Op) : Prop :=
  (guarded (fun x => inv x.1 x.2) fun q x => guard q x.1 x.2).Safe (S.record watch)
    (c.record watch) (fun a x => Q a x.1 x.2) (s, h)

namespace Records

theorem pure {a : γ} {Q : γ → σ → History σ κ Op → Prop} (hQ : Q a s h) :
    Records inv guard S watch (Pure.pure a) Q s h := Safe.pure hQ

theorem read_then {f : σ → Code σ ρ γ} {Q : γ → σ → History σ κ Op → Prop}
    (hf : Records inv guard S watch (f s) Q s h) :
    Records inv guard S watch (.read >>= f) Q s h := hf

theorem modify {f : σ → σ} {Q : Unit → σ → History σ κ Op → Prop} (hQ : Q () (f s) h) :
    Records inv guard S watch (.modify f) Q s h := ⟨hQ, trivial⟩

theorem mono {c : Code σ ρ γ} {Q Q' : γ → σ → History σ κ Op → Prop}
    (hc : Records inv guard S watch c Q s h) (himp : ∀ a t h', Q a t h' → Q' a t h') :
    Records inv guard S watch c Q' s h := Safe.mono hc fun a x => himp a x.1 x.2

theorem bind {c : Code σ ρ γ} {f : γ → Code σ ρ ε} {Q : ε → σ → History σ κ Op → Prop}
    (hc : Records inv guard S watch c (fun a => Records inv guard S watch (f a) Q) s h) :
    Records inv guard S watch (c >>= f) Q s h := by
  unfold Records
  rw [Code.record_bind]
  exact Safe.bind hc

theorem when {p : Prop} [Decidable p] {c : Code σ ρ Unit} {Q : Unit → σ → History σ κ Op → Prop}
    (hc : p → Records inv guard S watch c Q s h) (hnot : ¬ p → Q () s h) :
    Records inv guard S watch (.when p c) Q s h := by
  unfold Code.when
  split
  · exact hc ‹p›
  · exact pure (hnot ‹¬ p›)

/-- A question that is answered at once and is not watched. -/
theorem ask {q : κ} {Q : ρ q → σ → History σ κ Op → Prop} (huser : ¬ S.user q)
    (hwatch : watch q = false) (hguard : guard q s h)
    (hQ : ∀ r t, S.answer q s r t → Q r t h) : Records inv guard S watch (.query q) Q s h := by
  have hsame : h.ask watch q s = h := by rw [History.ask, hwatch, cond_false]
  refine Safe.ask (s := (s, h.ask watch q s)) huser (hsame.symm ▸ hguard) ?_
  rintro r ⟨t, h'⟩ ⟨hanswer, rfl⟩
  refine ⟨?_, trivial⟩
  rw [hsame]
  exact hQ r t hanswer

/-- A question that is answered at once and is watched. -/
theorem watched {q : κ} {Q : ρ q → σ → History σ κ Op → Prop} (huser : ¬ S.user q)
    (hwatch : watch q = true) (hguard : guard q s (h ++ [.asked q s]))
    (hQ : ∀ r t, S.answer q s r t → Q r t (h ++ [.asked q s])) :
    Records inv guard S watch (.query q) Q s h := by
  have hmark : h.ask watch q s = h ++ [.asked q s] := by rw [History.ask, hwatch, cond_true]
  refine Safe.ask (s := (s, h.ask watch q s)) huser (hmark.symm ▸ hguard) ?_
  rintro r ⟨t, h'⟩ ⟨hanswer, rfl⟩
  refine ⟨?_, trivial⟩
  rw [hmark]
  exact hQ r t hanswer

/-- A callback that is watched. -/
theorem call {q : κ} {Q : ρ q → σ → History σ κ Op → Prop} (huser : S.user q)
    (hwatch : watch q = true) (hguard : guard q s (h ++ [.asked q s]))
    (hinv : inv s (h ++ [.asked q s]))
    (hQ : ∀ u h' r t, inv u h' → S.answer q u r t → Q r t h') :
    Records inv guard S watch (.query q) Q s h := by
  have hmark : h.ask watch q s = h ++ [.asked q s] := by rw [History.ask, hwatch, cond_true]
  refine Safe.call (s := (s, h.ask watch q s)) huser (hmark.symm ▸ hguard) (hmark.symm ▸ hinv) ?_
  rintro ⟨u, h'⟩ r ⟨t, _⟩ hu - ⟨hanswer, rfl⟩
  exact ⟨hQ u _ r t hu hanswer, trivial⟩

/-- A question without answers ends the run. -/
theorem stop {q : κ} {next : ρ q → Code σ ρ γ} {Q : γ → σ → History σ κ Op → Prop}
    (hempty : ρ q → False) (huser : ¬ S.user q) (hguard : guard q s (h.ask watch q s)) :
    Records inv guard S watch (.ask q next) Q s h :=
  Safe.stop (s := (s, h.ask watch q s)) hempty huser hguard

/-- Code that puts only questions that are not watched keeps the history. -/
theorem silent {c : Code σ ρ γ} {Q : γ → σ → Prop}
    (hc : c.wp ⟨fun q t => ¬ S.user q ∧ watch q = false ∧ guard q t h, S.answer⟩ Q s) :
    Records inv guard S watch c (fun a t h' => Q a t ∧ h' = h) s h := by
  induction c generalizing s with
  | ret a => exact ⟨⟨hc, rfl⟩, trivial⟩
  | get next ih => exact ih s hc
  | put t next ih => exact ih hc
  | ask q next ih =>
      obtain ⟨⟨huser, hwatch, hguard⟩, hnext⟩ := hc
      change Records inv guard S watch (.query q >>= next) _ s h
      exact bind (ask huser hwatch hguard fun r t ht => ih r (hnext r t ht))

end Records

/-- Every call keeps the invariant of states and histories. -/
def Recorder (inv : σ → History σ κ Op → Prop) (guard : κ → σ → History σ κ Op → Prop)
    (S : System σ ρ Op β) (watch : κ → Bool) : Prop :=
  ∀ op s h, S.may s op → inv s h →
    Records inv guard S watch (S.api op) (fun _ => inv) s (h ++ [.called op s])

namespace Recorder

variable {t : σ} {stack : List (Frame σ ρ β)}

theorem keeps (hr : Recorder inv guard S watch) :
    (guarded (fun x : σ × History σ κ Op => inv x.1 x.2) fun q x => guard q x.1 x.2).Keeps
      (S.record watch) := fun op x hmay hx => hr op x.1 x.2 hmay hx

/-- The invariant rule for states and histories. -/
theorem inv_of_open (hr : Recorder inv guard S watch) (hrec : S.Recorded watch s h ⟨t, stack⟩)
    (hs : inv s []) (hopen : S.Open stack) : inv t h :=
  reaches_inv hr.keeps hrec hs ((System.open_record (h := h) (c := ⟨t, stack⟩)).mpr hopen)

/-- Whenever a question to the rest of the environment is open, its guard holds. -/
theorem guard_of_asked (hr : Recorder inv guard S watch) {f : Frame σ ρ β}
    (hrec : S.Recorded watch s h ⟨t, f :: stack⟩) (hs : inv s []) (huser : ¬ S.user f.question) :
    guard f.question t h := reaches_guard hr.keeps hrec hs huser

/-- What the invariant and the guards ensure holds in every run. -/
theorem always (hr : Recorder inv guard S watch) {P : History σ κ Op → Prop}
    (hinv : ∀ s h, inv s h → P h) (hguard : ∀ q s h, guard q s h → P h)
    {c : Config σ ρ β} (hrec : S.Recorded watch s h c) (hs : inv s []) : P h := by
  obtain ⟨t, stack⟩ := c
  cases stack with
  | nil => exact hinv t h (hr.inv_of_open hrec hs trivial)
  | cons f stack =>
      by_cases huser : S.user f.question
      · exact hinv t h (hr.inv_of_open hrec hs huser)
      · exact hguard _ t h (hr.guard_of_asked hrec hs huser)

end Recorder

end Discipline

end Interaction
