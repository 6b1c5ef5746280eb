import Dartlet.Members.Dispatch
import Dartlet.Proofs.Parallel.Actions

/-!
# Built-in members in parallel

A member of corresponding receivers with corresponding arguments does the same, provided that the
functions of the program that it calls do.
-/

namespace Dartlet.Comparison

open Dartlet.Action

set_option linter.unusedSectionVars false

variable [Host]

/-- The same result, whatever the stores are. -/
def Same {α : Type} (_ _ : Store) (a b : α) : Prop := a = b

variable {w : Comparison} {inside : Bool} {s t : Store}

theorem alike_same {α : Type} (a : α) : w.Alike inside Same s t (pure a) (pure a) := alike_pure rfl

theorem alike_plain {v : Value} (h : v.isPlain = true) : w.Alike inside w.Val s t (pure v) (pure v) :=
  alike_pure ⟨(Value.shift_of_isPlain w.shifts h).symm, Value.known_of_isPlain h⟩

theorem alike_value {v : Value} (h : v.Known (w.Known s)) :
    w.Alike inside w.Val s t (pure v) (pure (v.shift w.shifts)) :=
  alike_pure ⟨rfl, h⟩

/-- What an operator gives. -/
theorem alike_ofExcept {r : Except Trouble Value} (h : Gives (fun v => v.isPlain = true) r ∧ Commonly r) :
    w.Alike inside w.Val s t (ofExcept r) (ofExcept r) := by
  refine (reads_ofExcept h.2).alike (fun a b hab => ?_)
  obtain ⟨ha, rfl⟩ := hab
  exact ⟨(Value.shift_of_isPlain _ (h.1 a ha)).symm, Value.known_of_isPlain (h.1 a ha)⟩

/-! ### Arguments -/

theorem reads_complaint {α β : Type} {R : α → β → Prop} (m : String → Mismatch) (v : Value) :
    w.Reads inside R s t (fun s => mismatch (m (v.typeName s)) s)
      (fun t => mismatch (m ((v.shift w.shifts).typeName t)) t) :=
  (alike_complaint (m := fun s => m (v.typeName s)) (n := fun t => m ((v.shift w.shifts).typeName t))
    (fun hst => congrArg m (hst.typeName v))).reads

theorem reads_intArgument (method : String) (v : Value) :
    w.Reads inside Eq s t (intArgument method v) (intArgument method (v.shift w.shifts)) := by
  cases v with
  | int n => exact reads_pure rfl
  | _ => exact reads_complaint (.badArgument method "an int") _

theorem reads_numArgument (method : String) (v : Value) :
    w.Reads inside Eq s t (numArgument method v) (numArgument method (v.shift w.shifts)) := by
  unfold numArgument
  rw [Value.isNumber_shift]
  exact reads_ite (fun _ => reads_pure rfl) (fun _ => reads_complaint (.badArgument method "a num") v)

theorem reads_stringArgument (method : String) (v : Value) :
    w.Reads inside Eq s t (stringArgument method v) (stringArgument method (v.shift w.shifts)) := by
  cases v with
  | string text => exact reads_pure rfl
  | _ => exact reads_complaint (.badArgument method "a String") _

theorem reads_functionArgument (method : String) (v : Value) :
    w.Reads inside Eq s t (functionArgument method v) (functionArgument method (v.shift w.shifts)) := by
  unfold functionArgument
  rw [Value.isFunction_shift]
  exact reads_ite (fun _ => reads_pure rfl) (fun _ => reads_complaint (.badArgument method "a function") v)

theorem reads_boolResult (method : String) (v : Value) :
    w.Reads inside Eq s t (boolResult method v) (boolResult method (v.shift w.shifts)) := by
  cases v with
  | bool b => exact reads_pure rfl
  | _ => exact reads_complaint (.badCallbackResult method) _

/-! ### Texts -/

theorem refusal?_escaping {v : Value} {f : HostFailure} (h : v.refusal? s = some f) : f.isEscaping = true := by
  rcases Value.refusalWithin_cases h with rfl | rfl <;> rfl

theorem alike_textOf (v : Value) : w.Alike inside Same s t (textOf v) (textOf (v.shift w.shifts)) := by
  intro hst
  unfold textOf
  rw [hst.refusal?, hst.text]
  cases hrefused : v.refusal? s with
  | none => exact .done rfl (.refl hst)
  | some f => exact .escaped (.inr (refusal?_escaping hrefused)) (.refl hst)

theorem alike_textsOf (vs : List Value) :
    w.Alike inside Same s t (textsOf vs) (textsOf (vs.map (Value.shift w.shifts))) := by
  intro hst
  have hrefusals : (vs.map (Value.shift w.shifts)).findSome? (Value.refusal? t) = vs.findSome? (Value.refusal? s) := by
    rw [List.findSome?_map]
    exact congrArg (List.findSome? · vs) (funext hst.refusal?)
  have htexts : (vs.map (Value.shift w.shifts)).map (Value.text t) = vs.map (Value.text s) := by
    rw [List.map_map]
    exact List.map_congr_left (fun v _ => hst.text v)
  unfold textsOf
  rw [hrefusals, htexts]
  cases hrefused : vs.findSome? (Value.refusal? s) with
  | none => exact .done rfl (.refl hst)
  | some f =>
    obtain ⟨v, -, hv⟩ := List.exists_of_findSome?_eq_some hrefused
    exact .escaped (.inr (refusal?_escaping hv)) (.refl hst)

/-! ### Elements -/

theorem reads_itemsOf (v : Value) :
    w.Reads inside (w.Values (w.Known s)) s t (itemsOf v) (itemsOf (v.shift w.shifts)) := by
  refine .of_parallel (fun hst => ?_)
  cases v with
  | list a => exact fun _ => .inl ⟨_, _, hst.list a, rfl, rfl⟩
  | iterable a => exact fun _ => .inl ⟨_, _, hst.iterable a, rfl, rfl⟩
  | set a => exact fun _ => .inl ⟨_, _, hst.set a, rfl, rfl⟩
  | _ => exact reads_complaint .notIterable _

theorem reads_checkIndex (length : Nat) (index : Int) :
    w.Reads true Eq s t (checkIndex length index) (checkIndex length index) := by
  refine reads_ite (fun _ => reads_pure rfl) (fun _ => reads_ite (fun _ => ?_) (fun _ => ?_))
  · exact (alike_escape (.inl rfl)).reads
  · exact (alike_escape (.inl rfl)).reads

theorem reads_checkRange (length : Nat) (start stop : Int) :
    w.Reads true Eq s t (checkRange length start stop) (checkRange length start stop) := by
  refine reads_ite (fun _ => (alike_escape (.inl rfl)).reads) (fun _ => ?_)
  exact reads_ite (fun _ => (alike_escape (.inl rfl)).reads) (fun _ => reads_pure rfl)

theorem reads_stopArgument (method : String) (arguments : List Value) (length : Nat) :
    w.Reads inside Eq s t (stopArgument method arguments length)
      (stopArgument method (arguments.map (Value.shift w.shifts)) length) := by
  unfold stopArgument
  rw [List.getElem?_map]
  cases arguments[1]? with
  | none => exact reads_pure rfl
  | some v =>
    cases v with
    | null => exact reads_pure rfl
    | _ => exact reads_intArgument method _

/-- The argument in a place is among those that the call is given. -/
theorem known_argument {K : Value → Prop} {arguments : List Value} (h : ∀ v ∈ arguments, v.Known K) (i : Nat) :
    (argument arguments i).Known K := by
  unfold argument
  cases hi : arguments[i]? with
  | none => trivial
  | some v => exact h v (List.mem_of_getElem? hi)

/-! ### Texts and numbers -/

theorem alike_padding (method text : String) (arguments : List Value) :
    w.Alike inside Same s t (TextMethod.padding method text arguments)
      (TextMethod.padding method text (arguments.map (Value.shift w.shifts))) := by
  unfold TextMethod.padding
  rw [argument_shift, List.getElem?_map]
  refine (reads_intArgument _ _).bind (fun width _ hwidth => ?_)
  subst hwidth
  have hfill (fill : String) : w.Alike inside Same s t
      (ofExcept (repeatText fill (max (width - text.length) 0)))
      (ofExcept (repeatText fill (max (width - text.length) 0))) :=
    (reads_ofExcept (commonly_repeatText _ _)).alike (fun _ _ h => h.2)
  cases arguments[1]? with
  | none => exact hfill " "
  | some v =>
    refine (reads_stringArgument method v).bind (fun fill _ heq => ?_)
    subst heq
    exact hfill fill

theorem alike_textGetter (text : String) (g : TextGetter) :
    w.Alike inside w.Val s t (g.read text) (g.read text) := by
  cases g with
  | codeUnits =>
    refine alike_newList ⟨?_, ?_⟩
    · simp [Function.comp_def, Value.shift]
    · simp [Value.Known]
  | _ => exact alike_plain rfl

theorem alike_textMethod (text : String) (arguments : List Value) (m : TextMethod) :
    w.Alike true w.Val s t (m.run text arguments) (m.run text (arguments.map (Value.shift w.shifts))) := by
  -- a method with one text argument
  have hstring {f : String → Action Value} (method : String) (v : Value)
      (hf : ∀ part, w.Alike true w.Val s t (f part) (f part)) :
      w.Alike true w.Val s t (stringArgument method v >>= f) (stringArgument method (v.shift w.shifts) >>= f) :=
    (reads_stringArgument method v).bind (fun part _ heq => heq ▸ hf part)
  cases m <;> simp only [TextMethod.run, argument_shift]
  case substring =>
    refine (reads_intArgument _ _).bind (fun start _ heq => ?_)
    subst heq
    refine (reads_stopArgument _ _ _).bind (fun stop _ heq => ?_)
    subst heq
    refine (reads_checkRange _ _ _).bind (fun range _ heq => ?_)
    subst heq
    exact alike_plain rfl
  case toUpperCase => exact alike_plain rfl
  case toLowerCase => exact alike_plain rfl
  case trim => exact alike_plain rfl
  case trimLeft => exact alike_plain rfl
  case trimRight => exact alike_plain rfl
  case contains => exact hstring _ _ (fun _ => alike_plain rfl)
  case startsWith => exact hstring _ _ (fun _ => alike_plain rfl)
  case endsWith => exact hstring _ _ (fun _ => alike_plain rfl)
  case indexOf => exact hstring _ _ (fun part => alike_plain (by cases Text.indexOf? part.toList text.toList <;> rfl))
  case lastIndexOf =>
    exact hstring _ _ (fun part => alike_plain (by cases Text.lastIndexOf? part.toList text.toList <;> rfl))
  case split =>
    refine hstring _ _ (fun separator => alike_newList ⟨?_, ?_⟩)
    · simp [Function.comp_def, Value.shift]
    · simp [Value.Known]
  case replaceAll =>
    refine (reads_stringArgument _ _).bind (fun old _ heq => ?_)
    subst heq
    exact hstring _ _ (fun _ => alike_plain rfl)
  case padLeft =>
    exact (alike_padding _ _ _).bind (fun _ _ fill _ _ heq => heq ▸ alike_plain rfl)
  case padRight =>
    exact (alike_padding _ _ _).bind (fun _ _ fill _ _ heq => heq ▸ alike_plain rfl)
  case codeUnitAt =>
    refine (reads_intArgument _ _).bind (fun index _ heq => ?_)
    subst heq
    exact (reads_checkIndex _ _).bind (fun i _ heq => heq ▸ alike_plain rfl)
  case charAt =>
    refine (reads_intArgument _ _).bind (fun index _ heq => ?_)
    subst heq
    exact (reads_checkIndex _ _).bind (fun i _ heq => heq ▸ alike_plain rfl)
  case compareTo => exact hstring _ _ (fun _ => alike_plain rfl)

theorem alike_numberGetter (n : Numeral) (g : NumberGetter) : w.Alike inside w.Val s t (g.read n) (g.read n) := by
  cases g with
  | sign =>
    cases n with
    | int k => exact alike_plain rfl
    | double x =>
      simp only [NumberGetter.read]
      split
      · exact alike_plain rfl
      · exact alike_plain rfl
  | _ => exact alike_plain rfl

theorem alike_toWhole (round : Float → Option Int) (x : Float) :
    w.Alike true w.Val s t (NumberMethod.toWhole round x) (NumberMethod.toWhole round x) := by
  unfold NumberMethod.toWhole
  split
  · exact alike_plain rfl
  · exact alike_escape (.inl rfl)

theorem alike_fixed (n : Numeral) (places : Nat) :
    w.Alike true w.Val s t (NumberMethod.fixed n places) (NumberMethod.fixed n places) := by
  refine (reads_ofExcept n.commonly_toDouble).bind (fun x _ hx => ?_)
  obtain ⟨-, rfl⟩ := hx
  split
  · split
    · exact alike_plain rfl
    · exact alike_escape (.inl rfl)
  · exact alike_plain rfl

theorem order_shift (σ : Shifts) (a b : Value) :
    NumberMethod.order (a.shift σ) (b.shift σ) = NumberMethod.order a b := by
  simp [NumberMethod.order]

theorem isPlain_of_isNumber {v : Value} (h : v.isNumber = true) : v.isPlain = true := by
  cases v <;> first | rfl | cases h

theorem isPlain_ite {p : Prop} [Decidable p] {u v : Value} (hu : u.isPlain = true) (hv : v.isPlain = true) :
    (if p then u else v).isPlain = true := by
  split
  · exact hu
  · exact hv

/-- An argument that must be a number, for what then works on numbers alone. -/
theorem alike_numArgument {γ δ : Type} {Q : Store → Store → γ → δ → Prop} {x : Action γ} {y : Action δ} (method : String)
    (v : Value) (h : v.isNumber = true → w.Alike inside Q s t x y) :
    w.Alike inside Q s t (numArgument method v >>= fun _ => x) (numArgument method (v.shift w.shifts) >>= fun _ => y) := by
  cases hv : v.isNumber with
  | true => exact (reads_numArgument method v).bind (fun _ _ _ => h hv)
  | false =>
    have hfail : w.Reads inside (fun _ _ => False) s t (numArgument method v) (numArgument method (v.shift w.shifts)) := by
      simp only [numArgument, Value.isNumber_shift, hv]
      exact reads_complaint (.badArgument method "a num") v
    exact hfail.bind (fun _ _ hfalse => hfalse.elim)

theorem alike_numberMethod (n : Numeral) (arguments : List Value) (m : NumberMethod) :
    w.Alike true w.Val s t (m.run n arguments) (m.run n (arguments.map (Value.shift w.shifts))) := by
  have hn : n.toValue.shift w.shifts = n.toValue := Value.shift_of_isPlain _ n.isPlain_toValue
  cases m <;> simp only [NumberMethod.run, argument_shift]
  case abs => cases n <;> exact alike_plain rfl
  case toInt =>
    cases n with
    | int k => exact alike_plain rfl
    | double x => exact alike_toWhole _ x
  case truncate =>
    cases n with
    | int k => exact alike_plain rfl
    | double x => exact alike_toWhole _ x
  case toDouble =>
    refine (reads_ofExcept n.commonly_toDouble).bind (fun x _ hx => ?_)
    obtain ⟨-, rfl⟩ := hx
    exact alike_plain rfl
  case round =>
    cases n with
    | int k => exact alike_plain rfl
    | double x => exact alike_toWhole _ x
  case floor =>
    cases n with
    | int k => exact alike_plain rfl
    | double x => exact alike_toWhole _ x
  case ceil =>
    cases n with
    | int k => exact alike_plain rfl
    | double x => exact alike_toWhole _ x
  case toStringAsFixed =>
    refine (reads_intArgument _ _).bind (fun places _ heq => ?_)
    subst heq
    exact alike_ite (fun _ => alike_fixed n _) (fun _ => alike_escape (.inl rfl))
  case compareTo =>
    refine alike_numArgument _ _ (fun _ => ?_)
    have horder := order_shift w.shifts n.toValue (argument arguments 0)
    rw [hn] at horder
    rw [horder]
    exact alike_plain rfl
  case clamp =>
    refine alike_numArgument _ _ (fun hlow => alike_numArgument _ _ (fun hhigh => ?_))
    have hlow' := Value.shift_of_isPlain w.shifts (isPlain_of_isNumber hlow)
    have hhigh' := Value.shift_of_isPlain w.shifts (isPlain_of_isNumber hhigh)
    rw [hlow', hhigh']
    refine alike_ite (fun _ => alike_escape (.inl rfl)) (fun _ => alike_plain ?_)
    exact isPlain_ite (isPlain_of_isNumber hhigh) (isPlain_ite (isPlain_of_isNumber hlow) n.isPlain_toValue)
  case remainder =>
    refine alike_numArgument _ _ (fun _ => .of_parallel (fun hst => ?_))
    have hsame := hst.binaryResult .rem n.toValue (argument arguments 0)
    rw [hn] at hsame
    change w.Alike true w.Val s t (ofExcept (binaryResult s .rem n.toValue (argument arguments 0)))
      (ofExcept (binaryResult t .rem n.toValue ((argument arguments 0).shift w.shifts)))
    rw [hsame]
    exact alike_ofExcept (binaryResult_plain s .rem n.toValue (argument arguments 0))

end Dartlet.Comparison
