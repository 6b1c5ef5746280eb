import Dartlet.Proofs.Program.Accepted
import Dartlet.Proofs.Program.Traits

/-!
# Traits of what is read

Every rule of the grammar covers at least one token, and the derivation that counts for a text puts the
position of the first one on it. So what is built from the derivation has every trait that covers the
tokens of the text and allows the forms that the rules build.
-/

namespace Dartlet.Syntax

set_option linter.unusedSectionVars false

/-! ### Derivations -/

namespace Derivation

/-- Whether a place is the position of the first of some tokens. -/
def Begins (location : Location) (tokens : List Token) : Prop :=
  ∃ t, tokens.head? = some t ∧ location = some t.position

mutual

/-- A derivation whose rules all have the positions of their first tokens. -/
def Placed : Derivation → Prop
  | .leaf _ => True
  | .node _ location parts => Begins location (tokensAll parts) ∧ AllPlaced parts

def AllPlaced : List Derivation → Prop
  | [] => True
  | d :: rest => d.Placed ∧ AllPlaced rest

end

end Derivation

namespace Chart

/-- A way to derive categories that yields positions from the first token on. -/
def Places (c : Chart) (derive : Category → Nat → Nat → Option Derivation) : Prop :=
  ∀ ⦃category low high d⦄, derive category low high = some d →
    d.Placed ∧ Derivation.Begins (c.location low) d.tokens

theorem parts?_placed {c : Chart} {derive : Category → Nat → Nat → Option Derivation} (hderive : c.Places derive)
    {number low high : Nat} {rule : Rule} {before : List Symbol} {found parts : List Derivation}
    (hfound : Derivation.AllPlaced found)
    (hhigh : before = [] → Derivation.Begins (c.location high) (Derivation.tokensAll found))
    (h : c.parts? derive number rule low before high found = some parts) :
    Derivation.AllPlaced parts ∧ Derivation.Begins (c.location low) (Derivation.tokensAll parts) := by
  induction before generalizing high found with
  | nil =>
    simp only [parts?] at h
    split at h
    · rename_i heq
      obtain rfl := Option.some.inj h
      rw [← eq_of_beq heq]
      exact ⟨hfound, hhigh rfl⟩
    · cases h
  | cons symbol before ih =>
    cases symbol with
    | tok terminal =>
      cases high with
      | zero => cases h
      | succ place =>
        simp only [parts?] at h
        split at h
        · rename_i token htoken
          have hmore : Derivation.AllPlaced (.leaf token :: found) := ⟨trivial, hfound⟩
          exact ih hmore (fun _ => ⟨token, rfl, by simp [location, htoken]⟩) h
        · cases h
    | cat category =>
      simp only [parts?] at h
      split at h
      · cases h
      · split at h
        · cases h
        · rename_i d hd
          obtain ⟨hplaced, t, ht, hlocation⟩ := hderive hd
          have hmore : Derivation.AllPlaced (d :: found) := ⟨hplaced, hfound⟩
          exact ih hmore (fun _ => ⟨t, by simp [Derivation.tokensAll, ht], hlocation⟩) h

theorem derive?_placed {c : Chart} (hc : c.table.Proper) (depth : Nat) : c.Places (c.derive? depth) := by
  induction depth with
  | zero => exact fun _ _ _ _ h => nomatch h
  | succ depth ih =>
    intro category low high d h
    simp only [derive?] at h
    split at h
    · cases h
    · rename_i number rule hrule
      obtain ⟨parts, hparts, rfl⟩ := Option.map_eq_some_iff.mp h
      have hbody : rule.body ≠ [] := by
        simp only [ruleFor?] at hrule
        split at hrule
        · obtain ⟨r, hr, heq⟩ := Option.map_eq_some_iff.mp hrule
          cases heq
          exact hc.nonempty _ (Array.mem_of_getElem? hr)
        · cases hrule
      have hnone : Derivation.AllPlaced [] := trivial
      obtain ⟨hplaced, hplace⟩ :=
        parts?_placed ih hnone (fun hnil => absurd (List.reverse_eq_nil_iff.mp hnil) hbody) hparts
      exact ⟨⟨hplace, hplaced⟩, hplace⟩

end Chart

theorem derive_placed {start : Category} {text : String} {d : Derivation} (h : derive start text = .ok (some d)) :
    d.Placed := by
  have hsentence := readTokens_of_derive h
  unfold readTokens at hsentence
  simp only at hsentence
  split at hsentence
  · cases hsentence
  · split at hsentence
    · cases hsentence
    · split at hsentence
      · rename_i found hfound
        cases hsentence
        exact (Chart.derive?_placed Grammar.proper_ruleTable _ hfound).1
      · cases hsentence

/-! ### What is built -/

variable [Host] {T : Trait} {read : String → Except SyntaxError Expr}

section

variable {ks : List Kind} {k : Kind} {l : Location} {ps : List Piece} {p : Piece}

private theorem on_same (hks : (match ks with | [k'] | [_, k'] => k'.le k | _ => false) = true)
    (hps : FitsAll ks ps) (hon : T.OnAll ps) (h : assemble read .same l ps = .ok p) : T.On p := by
  split at hks
  · obtain ⟨q, rfl, -⟩ := hps.one
    obtain ⟨hq, -⟩ := hon
    cases h
    exact hq
  · obtain ⟨_, _, rfl, -, hrest⟩ := hps.more
    obtain ⟨q, rfl, -⟩ := hrest.one
    obtain ⟨-, hq, -⟩ := hon
    cases h
    exact hq
  · cases hks

private theorem on_single (hks : (match ks with | [k'] => k == .list k' | _ => false) = true)
    (hps : FitsAll ks ps) (hon : T.OnAll ps) (h : assemble read .single l ps = .ok p) : T.On p := by
  split at hks
  · obtain ⟨q, rfl, -⟩ := hps.one
    cases h
    exact hon
  · cases hks

private theorem on_appended
    (hks : (match ks with
      | [.list k₁, k₂] | [.list k₁, _, k₂] => k == .list k₁ && k₂.le k₁
      | _ => false) = true)
    (hps : FitsAll ks ps) (hon : T.OnAll ps) (h : assemble read .appended l ps = .ok p) : T.On p := by
  have hmore {found : List Piece} {q : Piece} (hfound : T.OnAll found) (hq : T.On q) : T.OnAll (found ++ [q]) := by
    rw [Trait.onAll_iff] at hfound ⊢
    simpa [or_imp, forall_and] using ⟨hfound, hq⟩
  split at hks
  · obtain ⟨_, _, rfl, ⟨found, rfl, -⟩, hrest⟩ := hps.more
    obtain ⟨q, rfl, -⟩ := hrest.one
    obtain ⟨hfound, hq, -⟩ := hon
    cases h
    exact hmore hfound hq
  · obtain ⟨_, _, rfl, ⟨found, rfl, -⟩, hrest⟩ := hps.more
    obtain ⟨_, _, rfl, -, hrest⟩ := hrest.more
    obtain ⟨q, rfl, -⟩ := hrest.one
    obtain ⟨hfound, -, hq, -⟩ := hon
    cases h
    exact hmore hfound hq
  · cases hks

end

/-- A rule that respects the kinds passes every trait on from its parts to what it builds. -/
theorem Rule.passes (hread : T.Reads read) {r : Rule} (hr : r.respectsKinds = true) {l : Location} (hl : T.At l)
    {ps : List Piece} {p : Piece} (hps : FitsAll (r.body.map Symbol.kind) ps) (hon : T.OnAll ps)
    (h : assemble read r.construct l ps = .ok p)
    (hshape : r.construct ∉ [.same, .single, .appended] → ∀ n, p.node? = some n → T.Shape n) : T.On p := by
  have hpasses {c : Construct} (hc : c ∉ [.same, .single, .appended]) (h : assemble read c l ps = .ok p)
      (hkinds : (c.result.le r.head.kind &&
        (c.isFree || c.shapes.any (fun shape => matchesShape shape (r.body.map Symbol.kind)))) = true)
      (hshape : ∀ n, p.node? = some n → T.Shape n) : T.On p := by
    rw [Bool.and_eq_true, Bool.or_eq_true] at hkinds
    refine c.passes hread hc hl hon ⟨hps.sound, fun hfree => ?_⟩ h hshape
    exact hps.oneOf (hkinds.2.resolve_left (by simp [hfree]))
  unfold Rule.respectsKinds at hr
  cases hconstruct : r.construct with
  | same =>
    rw [hconstruct] at hr h
    exact on_same hr hps hon h
  | single =>
    rw [hconstruct] at hr h
    exact on_single hr hps hon h
  | appended =>
    rw [hconstruct] at hr h
    exact on_appended hr hps hon h
  | _ =>
    rw [hconstruct] at hr h hshape
    exact hpasses (by decide) h hr (hshape (by decide))

/-- The forms that a trait allows are those that rules build. -/
def Trait.Shapes (T : Trait) (read : String → Except SyntaxError Expr) : Prop :=
  ∀ ⦃r l parts ps p n⦄, r ∈ Grammar.rules → r.construct ∉ [.same, .single, .appended] →
    Derivation.AllOf ruleTable r.body parts → (∀ t ∈ Derivation.tokensAll parts, t.Spelled) →
    Derivation.buildAll read parts = .ok ps → assemble read r.construct l ps = .ok p → p.node? = some n → T.Shape n

namespace Derivation

theorem Begins.at {l : Location} {tokens : List Token} (h : Begins l tokens) (hcovers : ∀ t ∈ tokens, T.Covers t) :
    T.At l := by
  obtain ⟨t, ht, rfl⟩ := h
  exact ⟨t, hcovers t (List.mem_of_head? ht), rfl⟩

mutual

/-- What is built from a derivation has the trait. -/
theorem build_on (hregular : ∀ text x, read text = .ok x → (Node.expr x).Regular) (hread : T.Reads read)
    (hshapes : T.Shapes read) {s : Symbol} {d : Derivation} (hd : d.Of ruleTable s)
    (htokens : ∀ t ∈ d.tokens, t.Spelled ∧ T.Covers t) (hplaced : d.Placed) {p : Piece}
    (h : d.build read = .ok p) : T.On p := by
  cases hd with
  | leaf t =>
    cases h
    exact (htokens t (List.mem_singleton_self t)).2
  | node hr hparts =>
    rename_i r l parts
    simp only [build] at h
    split at h
    · cases h
    · rename_i ps hps
      have hrule := Grammar.mem_ruleTable.mp hr
      have hspelled : ∀ t ∈ tokensAll parts, t.Spelled := fun t ht => (htokens t ht).1
      exact Rule.passes hread (Grammar.respectsKinds r hrule) (hplaced.1.at (fun t ht => (htokens t ht).2))
        (buildAll_fits hregular hparts hspelled hps) (buildAll_on hregular hread hshapes hparts htokens hplaced.2 hps) h
        (fun hc n hn => hshapes hrule hc hparts hspelled hps h hn)

theorem buildAll_on (hregular : ∀ text x, read text = .ok x → (Node.expr x).Regular) (hread : T.Reads read)
    (hshapes : T.Shapes read) {symbols : List Symbol} {parts : List Derivation}
    (hparts : AllOf ruleTable symbols parts) (htokens : ∀ t ∈ tokensAll parts, t.Spelled ∧ T.Covers t)
    (hplaced : AllPlaced parts) {ps : List Piece} (h : buildAll read parts = .ok ps) : T.OnAll ps := by
  cases hparts with
  | nil =>
    cases h
    trivial
  | cons hd hrest =>
    simp only [tokensAll, List.mem_append] at htokens
    simp only [buildAll] at h
    split at h
    · cases h
    · rename_i p hp
      split at h
      · cases h
      · rename_i ps' hps
        cases h
        exact ⟨build_on hregular hread hshapes hd (fun t ht => htokens t (.inl ht)) hplaced.1 hp,
          buildAll_on hregular hread hshapes hrest (fun t ht => htokens t (.inr ht)) hplaced.2 hps⟩

end

end Derivation

section

variable {depth : Nat} {text : String} (hread : T.Reads (readExpr depth)) (hshapes : T.Shapes (readExpr depth))
  (hcovers : ∀ t ∈ (lex text).tokens, T.Covers t)

include hread hshapes hcovers

/-- What is read from a text has every trait that covers its tokens. -/
theorem readPiece_on {start : Category} {p : Piece} (h : readPiece (readExpr depth) start text = .ok p) :
    p = .many [] ∨ T.On p := by
  unfold readPiece at h
  split at h
  · cases h
  · cases h
    exact .inl rfl
  · rename_i d hderive
    rcases derive_ok hderive with hnone | ⟨d', ⟨⟩, hof, htokens⟩
    · cases hnone
    · have hregular : ∀ code x, readExpr depth code = .ok x → (Node.expr x).Regular :=
        fun _ _ hx => (readExpr_accepted hx).regular
      refine .inr (Derivation.build_on hregular hread hshapes hof ?_ (derive_placed hderive) h)
      rw [htokens]
      exact fun t ht => ⟨lex_spelled text t ht, hcovers t ht⟩

theorem readExpr_on {x : Expr} (h : readExpr (depth + 1) text = .ok x) : T.Holds (.expr x) := by
  simp only [readExpr] at h
  split at h
  · cases h
  · rename_i p hp
    obtain ⟨rfl, -⟩ := checkedExpr_ok h
    rcases readPiece_on hread hshapes hcovers hp with hnone | hon
    · cases hnone
    · exact hon

end

section

variable {text : String} (hread : T.Reads (readExpr (embeddingLimit text)))
  (hshapes : T.Shapes (readExpr (embeddingLimit text))) (hcovers : ∀ t ∈ (lex text).tokens, T.Covers t)

include hread hshapes hcovers

theorem parseUnit_on {x : Stmt} (h : parseUnit text = .ok x) : T.Holds (.stmt x) ∨ x = .unit none [] := by
  unfold parseUnit at h
  split at h
  · cases h
  · rename_i p hp
    simp only at h
    split at h
    · cases h
    · cases h
      rcases readPiece_on hread hshapes hcovers hp with rfl | hon
      · exact .inr rfl
      · cases p with
        | stmt y => exact .inl hon
        | _ => exact .inr rfl

theorem parseStatements_on {xs : List Stmt} (h : parseStatements text = .ok xs) : ∀ x ∈ xs, T.Holds (.stmt x) := by
  unfold parseStatements at h
  split at h
  · cases h
  · rename_i p hp
    simp only at h
    split at h
    · cases h
    · cases h
      have hon : T.OnAll p.flatten := by
        rcases readPiece_on hread hshapes hcovers hp with rfl | hon
        · trivial
        · cases p with
          | many ps => exact hon
          | _ => exact ⟨hon, trivial⟩
      exact fun x hx => hon.nodes.stmts _ (List.mem_map_of_mem hx)

end

/-- What a text is read as: a program, one of some statements, or an expression. -/
inductive Node.IsReadFrom (text : String) : Node → Prop
  | program {x : Stmt} : parseUnit text = .ok x → IsReadFrom text (.stmt x)
  | statement {xs : List Stmt} {x : Stmt} : parseStatements text = .ok xs → x ∈ xs → IsReadFrom text (.stmt x)
  | expression {x : Expr} : parseExpression text = .ok x → IsReadFrom text (.expr x)

/-- What a text is read as is a piece that is built from it, unless it is the empty program. -/
theorem Node.IsReadFrom.piece {text : String} {n : Node} (h : n.IsReadFrom text) : n = .stmt (.unit none []) ∨
    ∃ depth start p, readPiece (readExpr depth) start text = .ok p ∧ ∃ q ∈ p.flatten, q.node? = some n := by
  cases h with
  | program hx =>
    unfold parseUnit at hx
    split at hx
    · cases hx
    · rename_i p hp
      simp only at hx
      split at hx
      · cases hx
      · cases hx
        cases p with
        | stmt x => exact .inr ⟨_, _, _, hp, _, List.mem_singleton_self _, rfl⟩
        | _ => exact .inl rfl
  | statement hxs hx =>
    unfold parseStatements at hxs
    split at hxs
    · cases hxs
    · rename_i p hp
      simp only at hxs
      split at hxs
      · cases hxs
      · cases hxs
        obtain ⟨q, hq, hqx⟩ := List.mem_filterMap.mp hx
        refine .inr ⟨_, _, _, hp, q, hq, ?_⟩
        cases q <;> cases hqx
        rfl
  | expression hx =>
    simp only [parseExpression, embeddingLimit, readExpr] at hx
    split at hx
    · cases hx
    · rename_i p hp
      obtain ⟨rfl, -⟩ := checkedExpr_ok hx
      exact .inr ⟨_, _, _, hp, _, List.mem_singleton_self _, rfl⟩

/-- Whatever is read from a text has a trait that embedded expressions have too, but for the empty program. -/
theorem Node.IsReadFrom.on {text : String} {n : Node} (h : n.IsReadFrom text) (hread : ∀ depth, T.Reads (readExpr depth))
    (hshapes : ∀ depth, T.Shapes (readExpr depth)) (hcovers : ∀ t ∈ (lex text).tokens, T.Covers t) :
    T.Holds n ∨ n = .stmt (.unit none []) := by
  cases h with
  | program hx => exact (parseUnit_on (hread _) (hshapes _) hcovers hx).imp_right (congrArg Node.stmt)
  | statement hxs hx => exact .inl (parseStatements_on (hread _) (hshapes _) hcovers hxs _ hx)
  | expression hx => exact .inl (readExpr_on (hread _) (hshapes _) hcovers hx)

end Dartlet.Syntax
