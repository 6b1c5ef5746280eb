import Dartlet.Proofs.Grammar.Phrases
import Dartlet.Proofs.Grammar.Table

/-!
# Flattening phrases

The rules of the grammar stand for the same sentences as its phrases. A phrase is expanded to
bodies of rules, with names for what is repeated and for some choices. The rules of a category are
exactly the bodies that its phrase expands to, so whatever is derived matches, and whatever matches
is derived; only the empty sentence, for which there is no rule, is kept apart.
-/

namespace Dartlet.Syntax.Grammar

open RuleTable

/-- The categories that are names of phrases inside others. -/
def nameable : List Category :=
  [.directives, .directiveWord, .directiveParts, .declarations, .declaration, .normals, .modifiers, .modifier,
    .defaults, .variables, .types, .statements, .catches, .expressionList, .equalityOp, .relationalOp,
    .additiveOp, .multiplicativeOp, .unaryOp, .stepOp, .argumentList, .strings, .elements]

/-- The name of a phrase. -/
def name? (p : Phrase) : Option Category := nameable.find? (fun c => phrase c == p)

/-- The bodies that a phrase stands for: its name, if it has one. -/
def orName (p : Phrase) (bodies : List (List Symbol)) : List (List Symbol) :=
  match name? p with
  | some c => [[.cat c]]
  | none => bodies

/-- The bodies that a phrase expands to. Phrases that are repeated must have names. -/
def expand : Phrase → List (List Symbol)
  | .tok t => [[.tok t]]
  | .cat c => [[.cat c]]
  | .seq a b => (orName a (expand a)).flatMap (fun v => (orName b (expand b)).map (v ++ ·))
  | .alt a b => orName a (expand a) ++ orName b (expand b)
  | .opt a => [] :: orName a (expand a)
  | .many a => [] :: orName (.several a) []
  | .several _ | .list _ => []

/-- The bodies that a phrase inside another one stands for. -/
def bodiesOf (p : Phrase) : List (List Symbol) := orName p (expand p)

/-- The bodies of the rules for a category. -/
def ruleBodies (c : Category) : List (List Symbol) :=
  match phrase c with
  | .several a => bodiesOf a ++ (bodiesOf a).map (.cat c :: ·)
  | .list a => bodiesOf a ++ (bodiesOf a).map (fun b => .cat c :: .tok .comma :: b)
  | p => expand p

theorem phrase_of_name? {p : Phrase} {c : Category} (h : name? p = some c) : phrase c = p :=
  beq_iff_eq.mp (List.find?_some (p := fun c => phrase c == p) h)

theorem bodiesOf_of_name? {p : Phrase} {c : Category} (h : name? p = some c) : bodiesOf p = [[.cat c]] := by
  simp only [bodiesOf, orName, h]

/-! ### The rules in their order -/

/-- The categories in the order in which their rules are listed. -/
def listed : List Category :=
  [.unit, .script, .expression, .directives, .directive, .directiveWord, .directiveParts, .directivePart,
    .declarations, .declaration, .functionDeclaration, .functionBody, .formals, .normals, .normal, .modifiers,
    .modifier, .optionals, .defaults, .defaulted, .variableDeclarations, .declarationWord, .variables, .variable,
    .type, .typeArguments, .types, .statements, .statement, .closedStatement, .openStatement, .simpleStatement,
    .block, .tryStatement, .catches, .catchPart, .finallyPart, .forParts, .forStart, .expressionList,
    .loopVariable, .expr, .assignmentExpr, .assignOp, .conditionalExpr, .orExpr, .andExpr, .equalityExpr,
    .relationalExpr, .additiveExpr, .multiplicativeExpr, .equalityOp, .relationalOp, .additiveOp,
    .multiplicativeOp, .unaryExpr, .unaryOp, .postfixExpr, .stepOp, .arguments, .argumentList, .argument,
    .primary, .literal, .strings, .listLiteral, .setOrMapLiteral, .elements, .element, .mapEntry]

theorem mem_listed (c : Category) : c ∈ listed := by
  cases c <;> decide

/-- Whether rules are those of some categories in turn, each with the bodies that its phrase expands to. An empty
body is left out, and only a category with the empty sentence has one. -/
def listsBodies : List Category → List Rule → Bool
  | [], rules => rules.isEmpty
  | c :: cs, rules =>
    let bodies := (rules.takeWhile (fun r => r.head == c)).map Rule.body
    bodies.all (fun b => (ruleBodies c).contains b) &&
      (ruleBodies c).all (fun b => if b.isEmpty then acceptsEmpty c else bodies.contains b) &&
      listsBodies cs (rules.dropWhile (fun r => r.head == c))

theorem mem_ruleBodies_of_listsBodies {cs : List Category} {rs : List Rule} (h : listsBodies cs rs = true) :
    ∀ r ∈ rs, r.body ∈ ruleBodies r.head := by
  induction cs generalizing rs with
  | nil => simp [List.isEmpty_iff.mp h]
  | cons c cs ih =>
    simp only [listsBodies, Bool.and_eq_true] at h
    obtain ⟨⟨hbodies, -⟩, hrest⟩ := h
    intro r hr
    rw [← List.takeWhile_append_dropWhile (p := fun r => r.head == c) (l := rs), List.mem_append] at hr
    rcases hr with hr | hr
    · have hhead : r.head = c := by simpa using List.all_eq_true.mp List.all_takeWhile r hr
      rw [hhead]
      simpa using List.all_eq_true.mp hbodies _ (List.mem_map_of_mem hr)
    · exact ih hrest r hr

theorem rule_of_listsBodies {cs : List Category} {rs : List Rule} (h : listsBodies cs rs = true) {c : Category}
    (hc : c ∈ cs) {b : List Symbol} (hb : b ∈ ruleBodies c) :
    if b.isEmpty then acceptsEmpty c = true else ∃ r ∈ rs, r.head = c ∧ r.body = b := by
  induction cs generalizing rs with
  | nil => cases hc
  | cons d cs ih =>
    simp only [listsBodies, Bool.and_eq_true] at h
    obtain ⟨⟨-, hbodies⟩, hrest⟩ := h
    cases hempty : b.isEmpty with
    | true =>
      rcases List.mem_cons.mp hc with rfl | hc
      · simpa [hempty] using List.all_eq_true.mp hbodies b hb
      · simpa [hempty] using ih hrest hc
    | false =>
      rcases List.mem_cons.mp hc with rfl | hc
      · have hlisted := List.all_eq_true.mp hbodies b hb
        rw [hempty, if_neg Bool.false_ne_true] at hlisted
        obtain ⟨r, hr, rfl⟩ := List.mem_map.mp (List.contains_iff_mem.mp hlisted)
        have hhead : r.head = c := by simpa using List.all_eq_true.mp List.all_takeWhile r hr
        exact ⟨r, (List.takeWhile_prefix _).subset hr, hhead, rfl⟩
      · have hmore := ih hrest hc
        rw [hempty, if_neg Bool.false_ne_true] at hmore
        obtain ⟨r, hr, hrule⟩ := hmore
        exact ⟨r, (List.dropWhile_suffix _).subset hr, hrule⟩

theorem listsBodies_rules : listsBodies listed rules = true := by
  decide

theorem mem_ruleBodies : ∀ r ∈ rules, r.body ∈ ruleBodies r.head :=
  mem_ruleBodies_of_listsBodies listsBodies_rules

/-! ### What is derived matches -/

/-- The terminals that symbols stand for by the phrases of their categories. -/
def Reads : List Symbol → List Terminal → Prop
  | [], w => w = []
  | .tok t :: rest, w => ∃ v, w = t :: v ∧ Reads rest v
  | .cat c :: rest, w => ∃ u v, w = u ++ v ∧ Sentence c u ∧ Reads rest v

theorem Reads.split {a b : List Symbol} {w : List Terminal} (h : Reads (a ++ b) w) :
    ∃ u v, w = u ++ v ∧ Reads a u ∧ Reads b v := by
  induction a generalizing w with
  | nil => exact ⟨[], w, rfl, rfl, h⟩
  | cons s a ih =>
    cases s with
    | tok t =>
      obtain ⟨v, rfl, hv⟩ := h
      obtain ⟨x, y, rfl, hx, hy⟩ := ih hv
      exact ⟨t :: x, y, rfl, ⟨x, rfl, hx⟩, hy⟩
    | cat c =>
      obtain ⟨u, v, rfl, hu, hv⟩ := h
      obtain ⟨x, y, rfl, hx, hy⟩ := ih hv
      exact ⟨u ++ x, y, by rw [List.append_assoc], ⟨u, x, rfl, hu, hx⟩, hy⟩

theorem Reads.of_cat {c : Category} {w : List Terminal} (h : Reads [.cat c] w) : Sentence c w := by
  obtain ⟨u, v, rfl, hu, rfl⟩ := h
  simpa using hu

theorem matches_orName {p : Phrase} {bodies : List (List Symbol)} {b : List Symbol} {w : List Terminal}
    (hbodies : b ∈ bodies → Matches p w) (hb : b ∈ orName p bodies) (hw : Reads b w) : Matches p w := by
  unfold orName at hb
  split at hb
  · rename_i c hc
    obtain rfl := List.mem_singleton.mp hb
    exact phrase_of_name? hc ▸ hw.of_cat
  · exact hbodies hb

theorem matches_expand {p : Phrase} {b : List Symbol} {w : List Terminal} (hb : b ∈ expand p) (hw : Reads b w) :
    Matches p w := by
  induction p generalizing b w with
  | tok t =>
    obtain rfl := List.mem_singleton.mp hb
    obtain ⟨v, rfl, rfl⟩ := hw
    exact .tok t
  | cat c =>
    obtain rfl := List.mem_singleton.mp hb
    exact .cat hw.of_cat
  | seq p q ihp ihq =>
    obtain ⟨x, hx, hb⟩ := List.mem_flatMap.mp hb
    obtain ⟨y, hy, rfl⟩ := List.mem_map.mp hb
    obtain ⟨u, v, rfl, hu, hv⟩ := hw.split
    exact .seq (matches_orName (fun h => ihp h hu) hx hu) (matches_orName (fun h => ihq h hv) hy hv)
  | alt p q ihp ihq =>
    rcases List.mem_append.mp hb with hb | hb
    · exact .left (matches_orName (fun h => ihp h hw) hb hw)
    · exact .right (matches_orName (fun h => ihq h hw) hb hw)
  | opt p ih =>
    rcases List.mem_cons.mp hb with rfl | hb
    · obtain rfl := hw
      exact .missing
    · exact .given (matches_orName (fun h => ih h hw) hb hw)
  | many p _ =>
    rcases List.mem_cons.mp hb with rfl | hb
    · obtain rfl := hw
      exact .none
    · exact .any (matches_orName (fun h => absurd h List.not_mem_nil) hb hw)
  | several p _ => cases hb
  | list p _ => cases hb

theorem matches_bodiesOf {p : Phrase} {b : List Symbol} {w : List Terminal} (hb : b ∈ bodiesOf p) (hw : Reads b w) :
    Matches p w :=
  matches_orName (fun h => matches_expand h hw) hb hw

theorem sentence_of_ruleBodies {c : Category} {b : List Symbol} {w : List Terminal} (hb : b ∈ ruleBodies c)
    (hw : Reads b w) : Sentence c w := by
  unfold ruleBodies at hb
  split at hb
  · rename_i p hp
    rw [Sentence, hp]
    rcases List.mem_append.mp hb with hb | hb
    · exact .one (matches_bodiesOf hb hw)
    · obtain ⟨b', hb', rfl⟩ := List.mem_map.mp hb
      obtain ⟨u, v, rfl, hu, hv⟩ := hw
      rw [Sentence, hp] at hu
      exact .more hu (matches_bodiesOf hb' hv)
  · rename_i p hp
    rw [Sentence, hp]
    rcases List.mem_append.mp hb with hb | hb
    · exact .first (matches_bodiesOf hb hw)
    · obtain ⟨b', hb', rfl⟩ := List.mem_map.mp hb
      obtain ⟨u, _, rfl, hu, v, rfl, hv⟩ := hw
      rw [Sentence, hp] at hu
      exact .next hu (matches_bodiesOf hb' hv)
  · exact matches_expand hb hw

theorem reads_of_derives {symbols : List Symbol} {w : List Terminal} (h : ruleTable.Derives symbols w) :
    Reads symbols w := by
  induction h with
  | nil => rfl
  | tok t _ ih => exact ⟨_, rfl, ih⟩
  | cat hr _ _ ih₁ ih₂ =>
    exact ⟨_, _, rfl, sentence_of_ruleBodies (mem_ruleBodies _ (mem_ruleTable.mp hr)) ih₁, ih₂⟩

/-! ### What matches is derived -/

/-- Whether every repeated phrase inside a phrase has a name, and no category inside it has the
empty sentence. -/
def isFlat : Phrase → Bool
  | .tok _ => true
  | .cat c => !acceptsEmpty c
  | .seq a b | .alt a b => isFlat a && isFlat b
  | .opt a => isFlat a
  | .many a | .several a => (name? (.several a)).isSome && isFlat a
  | .list a => (name? (.list a)).isSome && isFlat a

/-- Whether a body is that of a rule for a category; an empty one, whether the empty sentence is
one. -/
def isRule (c : Category) (b : List Symbol) : Bool :=
  if b.isEmpty then acceptsEmpty c else rules.any (fun r => r.head == c && r.body == b)

/-- Whether the rules for a category are enough for its phrase. -/
def isCovered (c : Category) : Bool :=
  isFlat (phrase c) && (ruleBodies c).all (isRule c) &&
    (name? (phrase c) == none || name? (phrase c) == some c)

theorem isCovered_all (c : Category) : isCovered c = true := by
  have hphrases : listed.all (fun c => isFlat (phrase c) && (name? (phrase c) == none || name? (phrase c) == some c)) = true := by
    decide
  have hphrase := List.all_eq_true.mp hphrases c (mem_listed c)
  have hrules : (ruleBodies c).all (isRule c) = true := by
    refine List.all_eq_true.mpr fun b hb => ?_
    have hrule := rule_of_listsBodies listsBodies_rules (mem_listed c) hb
    unfold isRule
    split at hrule
    · rw [if_pos ‹_›]
      exact hrule
    · rw [if_neg ‹_›]
      simpa using hrule
  rw [Bool.and_eq_true] at hphrase
  simp only [isCovered, hphrase.1, hphrase.2, hrules, Bool.and_self]

theorem isFlat_phrase (c : Category) : isFlat (phrase c) = true := by
  have h := isCovered_all c
  simp only [isCovered, Bool.and_eq_true] at h
  exact h.1.1

theorem isRule_of_ruleBodies {c : Category} {b : List Symbol} (hb : b ∈ ruleBodies c) : isRule c b = true := by
  have h := isCovered_all c
  simp only [isCovered, Bool.and_eq_true] at h
  exact List.all_eq_true.mp h.1.2 b hb

theorem eq_of_name?_phrase {c d : Category} (h : name? (phrase c) = some d) : d = c := by
  have hc := isCovered_all c
  simp only [isCovered, Bool.and_eq_true, Bool.or_eq_true, beq_iff_eq] at hc
  rcases hc.2 with hnone | hsome
  · rw [hnone] at h
    cases h
  · rw [hsome] at h
    exact (Option.some.inj h).symm

theorem not_acceptsEmpty_of_name? {p : Phrase} {c : Category} (h : name? p = some c) : acceptsEmpty c = false := by
  have hall : ∀ c ∈ nameable, acceptsEmpty c = false := by decide
  exact hall c (List.mem_of_find?_eq_some h)

/-- What a body of a category's rules derives is derived from the category, but for the empty
sentence. -/
theorem derives_of_ruleBodies {c : Category} {b : List Symbol} {w : List Terminal} (hb : b ∈ ruleBodies c)
    (hw : ruleTable.Derives b w) : ruleTable.Derives [.cat c] w ∨ w = [] ∧ acceptsEmpty c = true := by
  have hrule := isRule_of_ruleBodies hb
  unfold isRule at hrule
  split at hrule
  · rename_i hempty
    obtain rfl := List.isEmpty_iff.mp hempty
    cases hw
    exact .inr ⟨rfl, hrule⟩
  · simp only [List.any_eq_true, Bool.and_eq_true, beq_iff_eq] at hrule
    obtain ⟨r, hr, rfl, rfl⟩ := hrule
    exact .inl (.single (mem_ruleTable.mpr hr) hw)

/-- The same for a category that is a name. -/
theorem derives_name {p : Phrase} {c : Category} (hc : name? p = some c) {b : List Symbol} {w : List Terminal}
    (hb : b ∈ ruleBodies c) (hw : ruleTable.Derives b w) : ∃ b ∈ bodiesOf p, ruleTable.Derives b w := by
  refine ⟨[.cat c], by rw [bodiesOf_of_name? hc]; exact List.mem_singleton.mpr rfl, ?_⟩
  refine (derives_of_ruleBodies hb hw).resolve_right (fun h => ?_)
  rw [not_acceptsEmpty_of_name? hc] at h
  cases h.2

theorem ruleBodies_of_expand {c : Category} {p : Phrase} (hp : phrase c = p) {b : List Symbol}
    (hb : b ∈ expand p) : b ∈ ruleBodies c := by
  unfold ruleBodies
  rw [hp]
  cases p with
  | several a => cases hb
  | list a => cases hb
  | _ => exact hb

/-- What an expanded body derives is derived from a body of the phrase. -/
theorem derives_expand {p : Phrase} {b : List Symbol} {w : List Terminal} (hb : b ∈ expand p)
    (hw : ruleTable.Derives b w) : ∃ b ∈ bodiesOf p, ruleTable.Derives b w := by
  cases hname : name? p with
  | none => exact ⟨b, by simpa only [bodiesOf, orName, hname] using hb, hw⟩
  | some c => exact derives_name hname (ruleBodies_of_expand (phrase_of_name? hname) hb) hw

/-- A phrase that belongs to a category derives what its bodies derive. -/
theorem derives_phrase {c : Category} {b : List Symbol} {w : List Terminal} (hb : b ∈ bodiesOf (phrase c))
    (hw : ruleTable.Derives b w) : ruleTable.Derives [.cat c] w ∨ w = [] ∧ acceptsEmpty c = true := by
  unfold bodiesOf orName at hb
  split at hb
  · rename_i d hd
    obtain rfl := eq_of_name?_phrase hd
    obtain rfl := List.mem_singleton.mp hb
    exact .inl hw
  · exact derives_of_ruleBodies (ruleBodies_of_expand rfl hb) hw

private theorem isFlat_several {p : Phrase} (h : isFlat (.several p) = true) :
    (∃ c, name? (.several p) = some c) ∧ isFlat p = true := by
  simpa [isFlat, Option.isSome_iff_exists] using h

private theorem isFlat_list {p : Phrase} (h : isFlat (.list p) = true) :
    (∃ c, name? (.list p) = some c) ∧ isFlat p = true := by
  simpa [isFlat, Option.isSome_iff_exists] using h

/-- The rules for a repeated phrase: one of it, or one more after several. -/
theorem ruleBodies_several {p : Phrase} {c : Category} (hc : name? (.several p) = some c) {b : List Symbol}
    (hb : b ∈ bodiesOf p) : b ∈ ruleBodies c ∧ .cat c :: b ∈ ruleBodies c := by
  simp only [ruleBodies, phrase_of_name? hc]
  exact ⟨List.mem_append_left _ hb, List.mem_append_right _ (List.mem_map_of_mem hb)⟩

/-- The same with commas. -/
theorem ruleBodies_list {p : Phrase} {c : Category} (hc : name? (.list p) = some c) {b : List Symbol}
    (hb : b ∈ bodiesOf p) : b ∈ ruleBodies c ∧ .cat c :: .tok .comma :: b ∈ ruleBodies c := by
  simp only [ruleBodies, phrase_of_name? hc]
  exact ⟨List.mem_append_left _ hb, List.mem_append_right _ (List.mem_map_of_mem hb)⟩

theorem derives_of_matches {p : Phrase} {w : List Terminal} (h : Matches p w) (hp : isFlat p = true) :
    ∃ b ∈ bodiesOf p, ruleTable.Derives b w := by
  induction h with
  | tok t => exact derives_expand (List.mem_singleton.mpr rfl) (.tok t .nil)
  | @cat c w _ ih =>
    obtain ⟨b, hb, hw⟩ := ih (isFlat_phrase c)
    refine derives_expand (p := .cat c) (List.mem_singleton.mpr rfl) ((derives_phrase hb hw).resolve_right ?_)
    rintro ⟨-, hempty⟩
    simp [isFlat, hempty] at hp
  | seq _ _ iha ihb =>
    simp only [isFlat, Bool.and_eq_true] at hp
    obtain ⟨x, hx, hv⟩ := iha hp.1
    obtain ⟨y, hy, hw⟩ := ihb hp.2
    exact derives_expand (List.mem_flatMap.mpr ⟨x, hx, List.mem_map_of_mem hy⟩) (hv.append hw)
  | left _ ih =>
    simp only [isFlat, Bool.and_eq_true] at hp
    obtain ⟨x, hx, hw⟩ := ih hp.1
    exact derives_expand (List.mem_append_left _ hx) hw
  | right _ ih =>
    simp only [isFlat, Bool.and_eq_true] at hp
    obtain ⟨x, hx, hw⟩ := ih hp.2
    exact derives_expand (List.mem_append_right _ hx) hw
  | missing => exact derives_expand List.mem_cons_self .nil
  | given _ ih =>
    obtain ⟨x, hx, hw⟩ := ih hp
    exact derives_expand (List.mem_cons_of_mem _ hx) hw
  | none => exact derives_expand List.mem_cons_self .nil
  | @any a w _ ih =>
    obtain ⟨x, hx, hw⟩ := ih hp
    refine derives_expand (p := .many a) (List.mem_cons_of_mem _ ?_) hw
    exact hx
  | one _ ih =>
    obtain ⟨⟨c, hc⟩, ha⟩ := isFlat_several hp
    obtain ⟨x, hx, hw⟩ := ih ha
    exact derives_name hc (ruleBodies_several hc hx).1 hw
  | more _ _ ih₁ ih₂ =>
    obtain ⟨⟨c, hc⟩, ha⟩ := isFlat_several hp
    obtain ⟨x, hx, hv⟩ := ih₁ hp
    obtain ⟨y, hy, hw⟩ := ih₂ ha
    rw [bodiesOf_of_name? hc, List.mem_singleton] at hx
    subst hx
    exact derives_name hc (ruleBodies_several hc hy).2 (hv.append hw)
  | first _ ih =>
    obtain ⟨⟨c, hc⟩, ha⟩ := isFlat_list hp
    obtain ⟨x, hx, hw⟩ := ih ha
    exact derives_name hc (ruleBodies_list hc hx).1 hw
  | next _ _ ih₁ ih₂ =>
    obtain ⟨⟨c, hc⟩, ha⟩ := isFlat_list hp
    obtain ⟨x, hx, hv⟩ := ih₁ hp
    obtain ⟨y, hy, hw⟩ := ih₂ ha
    rw [bodiesOf_of_name? hc, List.mem_singleton] at hx
    subst hx
    exact derives_name hc (ruleBodies_list hc hy).2 (hv.append (.tok .comma hw))

/-- The sentences of a category are those that the rules derive, and the empty one where it is
accepted. -/
theorem sentence_iff {c : Category} {w : List Terminal} :
    Sentence c w ↔ ruleTable.Derives [.cat c] w ∨ w = [] ∧ acceptsEmpty c = true := by
  constructor
  · intro h
    obtain ⟨b, hb, hw⟩ := derives_of_matches h (isFlat_phrase c)
    exact derives_phrase hb hw
  · rintro (h | ⟨rfl, hempty⟩)
    · exact (reads_of_derives h).of_cat
    · cases c with
      | unit => exact .seq .none .none
      | script => exact .none
      | _ => cases hempty

end Dartlet.Syntax.Grammar
