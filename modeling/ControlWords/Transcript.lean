/-
**Running a machine over a list of inputs.**

Programs of field steps, programs of gate steps and tracing sessions are all machines: a step takes
a state and an input to an output and a next state. `transcript` lists every output with the state
that follows it, and `finalState` is the state after the last input.

* `transcript_append` and `finalState_append`: a run goes on from where its first part ends;
* `getElem?_transcript_append`: each entry of a transcript is one step from the state that the
  inputs before it lead to;
* `transcript_filter`: inputs that leave every state as it is may be left out of a run, and the
  entries of the other inputs stay the same;
* `finalState_induction`: what every step keeps, a whole run keeps;
* `transcript_project` and `finalState_project`: a machine of which another shows only a part runs
  as the other does;
* `finalState_accumulate` and `finalState_latest`: a state that collects what the steps put out ends
  with all of it in order, and one that keeps the latest of it ends with the last.
-/

namespace ControlWords

universe u v w

variable {State : Type u} {Input : Type v} {Output : Type w}

/-- Every output of a run, each with the state after it. -/
def transcript (step : State → Input → Output × State) : State → List Input → List (Output × State)
  | _, [] => []
  | state, input :: rest => step state input :: transcript step (step state input).2 rest

/-- The state at the end of a run. -/
def finalState (step : State → Input → Output × State) (state : State) (inputs : List Input) :
    State :=
  inputs.foldl (fun current input => (step current input).2) state

/-! ### Runs and their parts -/

variable (step : State → Input → Output × State) (state : State)

@[simp] theorem length_transcript (inputs : List Input) :
    (transcript step state inputs).length = inputs.length := by
  induction inputs generalizing state with
  | nil => rfl
  | cons input rest ih => rw [transcript, List.length_cons, List.length_cons, ih]

theorem finalState_cons (input : Input) (rest : List Input) :
    finalState step state (input :: rest) = finalState step (step state input).2 rest :=
  rfl

theorem finalState_append (first second : List Input) :
    finalState step state (first ++ second) =
      finalState step (finalState step state first) second :=
  List.foldl_append

theorem transcript_append (first second : List Input) :
    transcript step state (first ++ second) =
      transcript step state first ++ transcript step (finalState step state first) second := by
  induction first generalizing state with
  | nil => rfl
  | cons input rest ih => rw [List.cons_append, transcript, ih, transcript, finalState_cons,
      List.cons_append]

/-- **An entry is one step from the state that the inputs before it lead to.** -/
theorem getElem?_transcript_append (before : List Input) (input : Input) (after : List Input) :
    (transcript step state (before ++ input :: after))[before.length]? =
      some (step (finalState step state before) input) := by
  have place : before.length = (transcript step state before).length :=
    (length_transcript step state before).symm
  rw [transcript_append, transcript, place, List.getElem?_append_right (Nat.le_refl _),
    Nat.sub_self, List.getElem?_cons_zero]

/-- **Idle inputs may be left out**: the entries of the other inputs stay the same. -/
theorem transcript_filter (keep : Input → Bool)
    (idle : ∀ state input, keep input = false → (step state input).2 = state)
    (inputs : List Input) :
    ((inputs.zip (transcript step state inputs)).filter fun entry => keep entry.1).map Prod.snd =
      transcript step state (inputs.filter keep) := by
  induction inputs generalizing state with
  | nil => rfl
  | cons input rest ih =>
    rw [transcript, List.zip_cons_cons]
    cases kept : keep input with
    | true =>
      rw [List.filter_cons_of_pos (by exact kept), List.filter_cons_of_pos kept, List.map_cons, ih,
        transcript]
    | false =>
      have dropped : ¬ keep input = true := by rw [kept]; exact Bool.false_ne_true
      rw [List.filter_cons_of_neg (by exact dropped), List.filter_cons_of_neg dropped, ih,
        idle state input kept]

/-- **What every step keeps, a whole run keeps.** -/
theorem finalState_induction (Holds : State → Prop) {inputs : List Input}
    (kept : ∀ state, Holds state → ∀ input ∈ inputs, Holds (step state input).2)
    (start : Holds state) : Holds (finalState step state inputs) := by
  induction inputs generalizing state with
  | nil => exact start
  | cons input rest ih =>
    refine ih _ (fun state holds next member => ?_) (kept state start input List.mem_cons_self)
    exact kept state holds next (List.mem_cons_of_mem _ member)

theorem finalState_filter (keep : Input → Bool)
    (idle : ∀ state input, keep input = false → (step state input).2 = state)
    (inputs : List Input) :
    finalState step state (inputs.filter keep) = finalState step state inputs := by
  induction inputs generalizing state with
  | nil => rfl
  | cons input rest ih =>
    cases kept : keep input with
    | true => rw [List.filter_cons_of_pos kept, finalState_cons, finalState_cons, ih]
    | false =>
      have dropped : ¬ keep input = true := by rw [kept]; exact Bool.false_ne_true
      rw [List.filter_cons_of_neg dropped, finalState_cons, idle state input kept, ih]

/-! ### Machines that show a part of another -/

section Project

variable {Part : Type u} {Shown : Type w} {part : Part → Input → Shown × Part}
variable {view : State → Part} {shown : Output → Shown}

/-- **A machine runs as the machine of which it shows a part.** -/
theorem transcript_project
    (agrees : ∀ state input,
      part (view state) input = (shown (step state input).1, view (step state input).2))
    (inputs : List Input) :
    transcript part (view state) inputs =
      (transcript step state inputs).map (Prod.map shown view) := by
  induction inputs generalizing state with
  | nil => rfl
  | cons input rest ih =>
    rw [transcript, agrees, ih]
    rfl

theorem finalState_project
    (agrees : ∀ state input,
      part (view state) input = (shown (step state input).1, view (step state input).2))
    (inputs : List Input) :
    finalState part (view state) inputs = view (finalState step state inputs) := by
  induction inputs generalizing state with
  | nil => rfl
  | cons input rest ih => rw [finalState_cons, finalState_cons, agrees, ih]

end Project

/-! ### What a state has collected -/

/-- **A state that collects what each step puts out** ends with all of it, in the order of steps. -/
theorem finalState_accumulate {Item : Type v} {collected : State → List Item}
    {items : Output → List Item}
    (collects : ∀ state input,
      collected (step state input).2 = collected state ++ items (step state input).1)
    (inputs : List Input) :
    collected (finalState step state inputs) =
      collected state ++ (transcript step state inputs).flatMap fun entry => items entry.1 := by
  induction inputs generalizing state with
  | nil => rw [transcript, List.flatMap_nil, List.append_nil]; rfl
  | cons input rest ih =>
    rw [finalState_cons, ih, collects, transcript, List.flatMap_cons, List.append_assoc]

/-- **A state that keeps the latest item that was put out** ends with the last one of the run, or
with what it had if there was none. -/
theorem finalState_latest {Item : Type v} (kept : State → Option Item)
    (item? : Input → Output → Option Item)
    (keeps : ∀ state input,
      kept (step state input).2 = (item? input (step state input).1).or (kept state))
    (inputs : List Input) :
    kept (finalState step state inputs) =
      ((inputs.zip (transcript step state inputs)).filterMap
        fun entry => item? entry.1 entry.2.1).getLast?.or (kept state) := by
  induction inputs generalizing state with
  | nil => rfl
  | cons input rest ih =>
    rw [finalState_cons, ih, keeps, transcript, List.zip_cons_cons]
    cases first : item? input (step state input).1 with
    | none => rw [List.filterMap_cons_none (by exact first), Option.none_or]
    | some item =>
      rw [List.filterMap_cons_some (by exact first), List.getLast?_cons, Option.some_or]
      cases (List.filterMap _ _).getLast? with
      | none => rfl
      | some later => rfl

/-- Items that come from the inputs alone are found without the transcript. -/
theorem filterMap_zip_transcript {Item : Type v} (item? : Input → Option Item)
    (inputs : List Input) :
    ((inputs.zip (transcript step state inputs)).filterMap fun entry => item? entry.1) =
      inputs.filterMap item? := by
  have whole : (inputs.zip (transcript step state inputs)).map Prod.fst = inputs :=
    List.map_fst_zip (Nat.le_of_eq (length_transcript step state inputs).symm)
  calc ((inputs.zip (transcript step state inputs)).filterMap fun entry => item? entry.1)
      = ((inputs.zip (transcript step state inputs)).map Prod.fst).filterMap item? := by
        rw [List.filterMap_map]
        rfl
    _ = inputs.filterMap item? := by rw [whole]

end ControlWords
