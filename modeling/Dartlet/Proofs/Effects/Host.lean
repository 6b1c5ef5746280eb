import Dartlet.Host.Reflection
import Dartlet.Proofs.Effects.Members

/-!
# The host keeps stable properties

Handing values to the host and taking its data over, the host's own functions, and the attributes of
its objects and of errors.
-/

namespace Dartlet

open Dartlet.Action

set_option linter.unusedSectionVars false

variable {I : Store → Prop} {c : Caller}

theorem keeps_toHost (v : Value) : Keeps I (toHost v) := by
  intro s hs
  unfold toHost
  split
  · exact ⟨trivial, hs⟩
  · exact hs

theorem keeps_toHostAll (values : List Value) : Keeps I (toHostAll values) := by
  induction values with
  | nil => exact keeps_pure []
  | cons v rest ih => exact (keeps_toHost v).bind (fun _ => ih.bind (fun _ => keeps_pure _))

variable [Host]

namespace Stable

mutual

theorem fromHost (hI : Stable I) : ∀ h : HostValue, Keeps I (Action.fromHost h)
  | .none | .bool _ | .int _ | .float _ | .text _ | .value _ => by
    simp only [Action.fromHost]
    exact keeps_pure _
  | .callback f => by
    simp only [Action.fromHost]
    exact hI.newNative _ _
  | .list items => by
    simp only [Action.fromHost]
    exact (fromHostAll hI items).bind (fun _ => hI.newList _)
  | .set items => by
    simp only [Action.fromHost]
    exact (fromHostAll hI items).bind (fun values => hI.newSet (Members.distinct_ofList values))
  | .dict entries => by
    simp only [Action.fromHost]
    exact (fromHostEntries hI entries).bind (fun pairs => hI.newMap (Entries.distinct_nil.putAll pairs))

theorem fromHostAll (hI : Stable I) : ∀ items : List HostValue, Keeps I (Action.fromHostAll items)
  | [] => by
    simp only [Action.fromHostAll]
    exact keeps_pure []
  | h :: rest => by
    simp only [Action.fromHostAll]
    exact (fromHost hI h).bind (fun _ => (fromHostAll hI rest).bind (fun _ => keeps_pure _))

theorem fromHostEntries (hI : Stable I) :
    ∀ entries : List (HostValue × HostValue), Keeps I (Action.fromHostEntries entries)
  | [] => by
    simp only [Action.fromHostEntries]
    exact keeps_pure []
  | (key, value) :: rest => by
    simp only [Action.fromHostEntries]
    refine (fromHost hI key).bind (fun _ => (fromHost hI value).bind (fun _ => ?_))
    exact (fromHostEntries hI rest).bind (fun _ => keeps_pure _)

end

end Stable

namespace HostMethod

theorem ordinarily_square (s : Store) (h : HostValue) : Ordinarily (square s h) := by
  unfold square
  split
  · exact Numeral.ordinarily_combine _ _ _ _
  · dsimp only
    split <;> exact ordinarily_failure _

theorem squaredNorm_keeps (hI : Stable I) (a : Address) : Keeps I (squaredNorm a) := by
  intro s hs
  refine hI.ofExcept ?_ s hs
  refine (ordinarily_square s _).bind (fun x => (ordinarily_square s _).bind (fun y => ?_))
  exact (Numeral.ordinarily_combine _ _ _ _).bind (fun sum => ordinarily_ok _)

theorem draw_keeps (hI : Stable I) (a : Address) : Keeps I (draw a) := by
  intro s hs
  unfold draw
  split
  · exact ⟨trivial, hI.data (s := s) ⟨rfl, rfl, rfl, .of_same rfl rfl⟩ hs⟩
  · exact ⟨trivial, hs⟩

theorem drawBelow_keeps (hI : Stable I) (a : Address) (bound : Int) : Keeps I (drawBelow a bound) :=
  (draw_keeps hI a).bind (fun _ => keeps_pure _)

theorem nextBelow_keeps (hI : Stable I) (a : Address) (bound : HostValue) : Keeps I (nextBelow a bound) := by
  intro s hs
  unfold nextBelow
  dsimp only
  split
  · exact hs
  · split
    · exact hs
    · split
      · exact hs
      · split
        · exact hs
        · split
          · exact drawBelow_keeps hI a _ s hs
          · exact hs
  · split
    · exact hs
    · exact drawBelow_keeps hI a _ s hs
  · exact ⟨trivial, hs⟩

theorem readLine_keeps (hI : Stable I) : Keeps I readLine := by
  intro s hs
  unfold readLine
  split
  · exact ⟨trivial, hs⟩
  · exact ⟨trivial, hI.data (s := s) ⟨rfl, rfl, rfl, .of_same rfl rfl⟩ hs⟩

theorem run_keeps (hI : Stable I) (a : Address) (arguments : List HostValue) (m : HostMethod) :
    Keeps I (m.run a arguments) := by
  cases m with
  | norm2 => exact squaredNorm_keeps hI a
  | explode => exact ensures_escape _
  | nextInt => exact nextBelow_keeps hI a _
  | nextDouble => exact (draw_keeps hI a).bind (fun _ => keeps_pure _)
  | nextBool => exact (draw_keeps hI a).bind (fun _ => keeps_pure _)
  | readLineSync => exact readLine_keeps hI

end HostMethod

/-- Setting attributes of an error does not change its cause. -/
theorem Stable.modifyError (hI : Stable I) (a : Address) {f : ErrorRecord → ErrorRecord}
    (hf : ∀ e, (f e).fault = e.fault) : Keeps I (Action.modify (fun s => s.modifyError a f)) :=
  hI.modify (fun s => s.sameButData_modifyError a hf)

theorem ErrorMethod.run_keeps (hI : Stable I) (a : Address) (arguments : List HostValue) (m : ErrorMethod) :
    Keeps I (m.run a arguments) := by
  cases m with
  | attachLocation =>
    simp only [run]
    cases arguments[0]?.getD .none with
    | none => exact keeps_pure _
    | _ =>
      refine (hI.modifyError a (fun e => ?_)).bind (fun _ => keeps_pure _)
      split <;> rfl
  | withTraceback =>
    simp only [run]
    cases arguments[0]?.getD .none with
    | none => exact keeps_pure _
    | _ => exact ensures_escape _
  | addNote =>
    simp only [run]
    cases arguments[0]?.getD .none with
    | text t => exact keeps_pure _
    | _ => exact fun _ hs => hs

namespace HostFunction

theorem callBack_keeps (hI : Stable I) (hc : c.Keeps I) (function : Value) (arguments : List HostValue) :
    Keeps I (callBack c function arguments) :=
  (hI.fromHostAll arguments).bind (fun _ => (hc _ _).bind (fun _ => keeps_toHost _))

theorem callData_keeps (hI : Stable I) (hc : c.Keeps I) (function : HostValue) (arguments : List HostValue) :
    Keeps I (callData c function arguments) := by
  cases function with
  | callback f => exact callBack_keeps hI hc f arguments
  | _ => exact fun _ hs => hs

theorem newRandom_keeps (hI : Stable I) (seed : HostValue) : Keeps I (newRandom seed) := by
  intro s hs
  unfold newRandom
  split
  · exact ⟨trivial, hI.data (s := s) ⟨rfl, rfl, rfl, .of_same rfl rfl⟩ hs⟩
  · exact hs

theorem run_keeps (hI : Stable I) (hc : c.Keeps I) (arguments : List HostValue) (f : HostFunction) :
    Keeps I (f.run c arguments) := by
  unfold run
  split
  · exact ensures_escape _
  · cases f with
    | callback g => exact callBack_keeps hI hc g arguments
    | makePoint => exact (hI.update (fun _ => ⟨rfl, rfl, rfl, .of_same rfl rfl⟩)).bind (fun _ => keeps_pure _)
    | makeRandom => exact newRandom_keeps hI _
    | applyTwice => exact (callData_keeps hI hc _ _).bind (fun _ => callData_keeps hI hc _ _)
    | echo => exact keeps_pure _
    | method a m => exact m.run_keeps hI a arguments
    | errorMethod a m => exact m.run_keeps hI a arguments

end HostFunction

namespace Stable

/-- Telling an error its place changes nothing but data, and what a program has put in the place of the method keeps what
calls keep. -/
theorem attach (hI : Stable I) (hc : c.Keeps I) (a : Address) (location : Syntax.Location) :
    Keeps I (Action.attach c a location) := by
  intro s hs
  unfold Action.attach
  split
  · exact ⟨trivial, hI.data (s.sameButData_locate a location) hs⟩
  · exact (HostFunction.callData_keeps hI hc _ _).bind (fun _ => keeps_pure _) s hs

theorem within {α : Type} {Q : α → Prop} {x : Action α} (hI : Stable I) (hc : c.Keeps I) (location : Syntax.Location)
    (h : Ensures I Q x) : Ensures I Q (Action.within c location x) :=
  h.within (fun a => hI.attach hc a location)

theorem noMember {α : Type} {Q : α → Prop} (hI : Stable I) (receiver : Value) (name : String) :
    Ensures I Q (Action.noMember receiver name : Action α) :=
  fun s hs => hI.fail rfl s hs

theorem readAttribute (hI : Stable I) (receiver : Value) (name : String) :
    Keeps I (Action.readAttribute receiver name) := by
  intro s hs
  unfold Action.readAttribute
  split
  · exact hI.noMember receiver name s hs
  · exact hI.fromHost _ s hs
  · exact hI.newNative name _ s hs

theorem errorArguments (h : HostValue) : Keeps I (Action.errorArguments h) := by
  have hnot : ∀ h : HostValue, Keeps I (fun s => (escape (.reported "TypeError"
      ("'" ++ h.kindName s ++ "' object is not iterable")) : Action (List HostValue)) s) :=
    fun h s hs => hs
  cases h with
  | list items => exact keeps_pure items
  | set items => exact keeps_pure items
  | dict entries => exact keeps_pure (entries.map Prod.fst)
  | text t => exact keeps_pure (t.toList.map (fun c => HostValue.text (String.singleton c)))
  | value v =>
    cases v with
    | object a =>
      intro s hs
      unfold Action.errorArguments
      dsimp only
      split
      · exact ⟨trivial, hs⟩
      · exact hs
    | _ => exact hnot _
  | _ => exact hnot _

theorem assignErrorAttribute (hI : Stable I) (a : Address) (name : String) (h : HostValue) :
    Keeps I (Action.assignErrorAttribute a name h) := by
  refine ensures_ite (fun _ => fun s hs => hs) (fun _ => ?_)
  refine ensures_ite (fun _ => hI.modifyError a (fun _ => rfl)) (fun _ => ?_)
  refine ensures_ite (fun _ => hI.modifyError a (fun _ => rfl)) (fun _ => ?_)
  have hput : ∀ stored, Keeps I (Action.modify (fun s => s.modifyError a
      (fun e => { e with assigned := Attribute.put name stored e.assigned }))) :=
    fun stored => hI.modifyError a (fun _ => rfl)
  dsimp only
  split
  · exact (errorArguments h).bind (fun items => (keeps_pure _).bind hput)
  · exact (keeps_pure h).bind hput

theorem assignAttribute (hI : Stable I) (receiver : Value) (name : String) (v : Value) :
    Keeps I (Action.assignAttribute receiver name v) := by
  intro s hs
  unfold Action.assignAttribute
  split
  · exact hI.noMember receiver name s hs
  · refine Keeps.bind (keeps_toHost v) (fun h => ?_) s hs
    dsimp only
    split
    · exact Keeps.bind (hI.modify (fun _ => ⟨rfl, rfl, rfl, .of_same rfl rfl⟩)) (fun _ => keeps_pure v)
    · exact Keeps.bind (hI.delegate (hI.assignErrorAttribute _ name h)) (fun _ => keeps_pure v)
    · exact Keeps.bind (keeps_pure ()) (fun _ => keeps_pure v)

theorem callAttribute (hI : Stable I) (hc : c.Keeps I) (receiver : Value) (name : String)
    (arguments : List Value) : Keeps I (Action.callAttribute c receiver name arguments) := by
  intro s hs
  unfold Action.callAttribute
  split
  · split
    · exact ((keeps_textOf _).bind fun _ => keeps_pure _) s hs
    · exact hI.noMember receiver name s hs
  · exact (hI.fromHost _).bind (fun _ => hc _ _) s hs
  · refine Keeps.bind (keeps_toHostAll arguments) (fun data => ?_) s hs
    exact Keeps.bind (hI.delegate (HostFunction.run_keeps hI hc data _)) (fun _ => hI.fromHost _)

end Stable
end Dartlet
