import Dartlet.Proofs.Program.BuiltPlaceless
import Dartlet.Proofs.Program.BuiltTraits
import Dartlet.Proofs.Program.Words

/-!
# Derivations up to places

What is built from a derivation depends on places only where it carries them: from two derivations that are the
same up to places the same is built up to places, with the same errors.
-/

namespace Dartlet.Syntax

open Dartlet.Text

set_option linter.unusedSectionVars false

/-! ### String literals -/

namespace Quotation

variable {read read' : String → Except SyntaxError Expr}

/-- Two ways to read embedded expressions that agree on those of a text, up to places. -/
def AgreeIn (read read' : String → Except SyntaxError Expr) (text : List Char) : Prop :=
  ∀ code, '$' :: '{' :: (code ++ ['}']) <:+: text →
    placelessResult Expr.placeless (read (String.ofList code)) = placelessResult Expr.placeless (read' (String.ofList code))

theorem AgreeIn.mono {text rest : List Char} (h : AgreeIn read read' text) (hrest : rest <:+: text) : AgreeIn read read' rest :=
  fun code hcode => h code (hcode.trans hrest)

theorem flush_placeless (pending : Option (List Char)) : (flush pending).map Part.placeless = flush pending := by
  cases pending <;> rfl

/-- An expression embedded after some text, and what follows it. -/
theorem embedded_placeless {x x' : Expr} (hx : x.placeless = x'.placeless) (pending : Option (List Char))
    {r r' : Except SyntaxError (List Part)}
    (h : placelessResult (List.map Part.placeless) r = placelessResult (List.map Part.placeless) r') :
    placelessResult (List.map Part.placeless) (r.map (fun more => flush pending ++ .code x :: more)) =
      placelessResult (List.map Part.placeless) (r'.map (fun more => flush pending ++ .code x' :: more)) := by
  have hmore (y : Expr) (more : List Part) : (flush pending ++ .code y :: more).map Part.placeless =
      flush pending ++ .code y.placeless :: more.map Part.placeless := by
    rw [List.map_append, flush_placeless]
    rfl
  rcases placelessResult_cases h with ⟨e, e', rfl, rfl, he⟩ | ⟨more, more', rfl, rfl, heq⟩
  · exact congrArg Except.error he
  · change Except.ok (List.map Part.placeless _) = Except.ok (List.map Part.placeless _)
    rw [hmore, hmore, hx, heq]

theorem parts_placeless {l l' : Location} {limit : Nat} {pending : Option (List Char)} {text : List Char}
    (hread : AgreeIn read read' text) :
    placelessResult (List.map Part.placeless) (parts read l limit pending text) =
      placelessResult (List.map Part.placeless) (parts read' l' limit pending text) := by
  have hdrop (c : Char) (rest : List Char) (n : Nat) : rest.drop n <:+: c :: rest :=
    ((List.drop_suffix _ _).trans (List.suffix_cons _ _)).isInfix
  have hembedded {rest code : List Char} (hcode : untilBrace 0 none rest = some code) :
      '$' :: '{' :: (code ++ ['}']) <:+: '$' :: '{' :: rest := by
    simpa using (List.prefix_cons_inj '$').mpr ((List.prefix_cons_inj '{').mpr (isPrefix_of_untilBrace hcode)) |>.isInfix
  fun_induction parts read l limit pending text with
  | case1 | case2 => simp only [parts]
  | case3 n pending rest flaw hflaw =>
    simp only [parts, hflaw]
    rfl
  | case4 n pending rest decoded length h ih =>
    simp only [parts, h]
    exact ih (hread.mono (hdrop _ _ _))
  | case5 n pending rest h =>
    simp only [parts, h]
    rfl
  | case6 n pending rest code hcode e he =>
    rcases placelessResult_cases (hread code (hembedded hcode)) with ⟨e₀, e', he₀, he', heq⟩ | ⟨x, x', hx, -, -⟩
    · rw [he] at he₀
      cases he₀
      simp only [parts, hcode, he']
      exact congrArg Except.error heq
    · rw [he] at hx
      cases hx
  | case7 n pending rest code hcode x hx ih =>
    have hrest := (hdrop '{' rest (code.length + 1)).trans (List.suffix_cons '$' _).isInfix
    rcases placelessResult_cases (hread code (hembedded hcode)) with ⟨e, e', he, -, -⟩ | ⟨x₀, x', hx₀, hx', heq⟩
    · rw [hx] at he
      cases he
    · rw [hx] at hx₀
      cases hx₀
      simp only [parts, hcode, hx']
      exact embedded_placeless heq pending (ih (hread.mono hrest))
  | case8 =>
    simp only [parts]
    rfl
  | case9 n pending c more hbegins =>
    rename_i ih
    simp only [parts, hbegins, if_true]
    refine embedded_placeless ?_ pending (ih (hread.mono (hdrop _ _ _)))
    rfl
  | case10 n pending c more hbegins =>
    simp only [parts, hbegins]
    rfl
  | case11 n pending c rest hescape hopen hdollar ih =>
    simp only [parts]
    exact ih (hread.mono (List.suffix_cons _ _).isInfix)

/-- Two ways to read embedded expressions that agree on those of some tokens, up to places. -/
def AgreeOn (Covers : Token → Prop) (read read' : String → Except SyntaxError Expr) : Prop :=
  ∀ t, Covers t → ∀ code, t.Embeds code →
    placelessResult Expr.placeless (read code) = placelessResult Expr.placeless (read' code)

theorem ofToken_placeless {t t' : Token} (hword : t.word = t'.word) (hread : AgreeOn (· = t) read read') :
    placelessResult (List.map Part.placeless) (ofToken read t) =
      placelessResult (List.map Part.placeless) (ofToken read' t') := by
  have htext : t.text = t'.text := congrArg Word.text hword
  unfold ofToken
  rw [← htext]
  split
  · rfl
  · refine parts_placeless (fun code hcode => hread t rfl _ ?_)
    simpa [Token.Embeds] using hcode.trans (isInfix_inside _)

theorem joinTexts_placeless (ps : List Part) : joinTexts (ps.map Part.placeless) = (joinTexts ps).map Part.placeless := by
  fun_induction joinTexts ps with
  | case1 a rest b more hjoin ih =>
    rw [hjoin] at ih
    simp only [List.map_cons, Part.placeless, joinTexts] at ih ⊢
    rw [ih]
  | case2 a rest hjoin ih =>
    simp only [List.map_cons, Part.placeless, joinTexts, ih]
    split
    · rename_i b more hmore
      -- a text after it would have been joined with it
      cases hrest : joinTexts rest with
      | nil => simp [hrest] at hmore
      | cons q qs =>
        cases q with
        | text b' => exact absurd hrest (hjoin b' qs)
        | code x => simp [hrest, Part.placeless] at hmore
    · rfl
  | case3 part rest hpart ih =>
    cases part with
    | text a => exact absurd rfl (hpart a)
    | code x => simp only [List.map_cons, Part.placeless, joinTexts, ih]
  | case4 => rfl

theorem plainText?_placeless (ps : List Part) : plainText? (ps.map Part.placeless) = plainText? ps := by
  induction ps with
  | nil => rfl
  | cons p ps ih => cases p <;> simp [plainText?, Part.placeless, ih]

theorem mapM_placeless {ts ts' : List Token} (hwords : ts.map Token.word = ts'.map Token.word)
    (hread : AgreeOn (· ∈ ts) read read') :
    placelessResult (List.map (List.map Part.placeless)) (ts.mapM (ofToken read)) =
      placelessResult (List.map (List.map Part.placeless)) (ts'.mapM (ofToken read')) := by
  induction ts generalizing ts' with
  | nil =>
    obtain rfl : ts' = [] := by simpa using hwords.symm
    rfl
  | cons t ts ih =>
    obtain ⟨t', ts', rfl⟩ : ∃ t' rest, ts' = t' :: rest := by
      cases ts' with
      | nil => cases hwords
      | cons t' rest => exact ⟨t', rest, rfl⟩
    obtain ⟨hword, hwords⟩ := List.cons.inj hwords
    obtain ⟨hread, hreads⟩ := List.forall_mem_cons.mp hread
    have hfirst : placelessResult (List.map Part.placeless) (ofToken read t) =
        placelessResult (List.map Part.placeless) (ofToken read' t') :=
      ofToken_placeless hword (fun _ ht => ht ▸ hread)
    have hrest := ih hwords hreads
    rw [List.mapM_cons, List.mapM_cons]
    rcases placelessResult_cases hfirst with ⟨e, e', he, he', heq⟩ | ⟨found, found', hfound, hfound', heq⟩
    · simp [he, he', bind, Except.bind, placelessResult, heq]
    · rcases placelessResult_cases hrest with ⟨e, e', he, he', heq'⟩ | ⟨more, more', hmore, hmore', heq'⟩
      · simp [hfound, hfound', he, he', bind, Except.bind, placelessResult, heq']
      · simp [hfound, hfound', hmore, hmore', bind, Except.bind, pure, Except.pure, placelessResult, heq, heq']

theorem literal_placeless {l l' : Location} {ts ts' : List Token} (hwords : ts.map Token.word = ts'.map Token.word)
    (hread : AgreeOn (· ∈ ts) read read') :
    placelessResult Expr.placeless (literal read l ts) = placelessResult Expr.placeless (literal read' l' ts') := by
  rcases placelessResult_cases (mapM_placeless hwords hread) with ⟨e, e', he, he', heq⟩ | ⟨found, found', hfound, hfound', heq⟩
  · simp [literal, he, he', placelessResult, heq]
  · have hjoined : (joinTexts found.flatten).map Part.placeless = (joinTexts found'.flatten).map Part.placeless := by
      rw [← joinTexts_placeless, ← joinTexts_placeless, List.map_flatten, List.map_flatten, heq]
    have hplain : plainText? (joinTexts found.flatten) = plainText? (joinTexts found'.flatten) := by
      rw [← plainText?_placeless, hjoined, plainText?_placeless]
    simp only [literal, hfound, hfound', hplain]
    split
    · rfl
    · rw [← placelessParts_eq, ← placelessParts_eq] at hjoined
      exact congrArg (fun ps => Except.ok (Expr.interpolation none ps)) hjoined

end Quotation

/-! ### Rules -/

variable [Host] {read read' : String → Except SyntaxError Expr}

section

variable {ks : List Kind} {k : Kind} {l : Location} {ps : List Piece}

private theorem keeps_same (hks : (match ks with | [k'] | [_, k'] => k'.le k | _ => false) = true) (hps : FitsAll ks ps) :
    assemble read' .same none (ps.map Piece.placeless) = placelessResult Piece.placeless (assemble read .same l ps) := by
  split at hks
  · obtain ⟨q, rfl, -⟩ := hps.one
    rfl
  · obtain ⟨_, _, rfl, -, hrest⟩ := hps.more
    obtain ⟨q, rfl, -⟩ := hrest.one
    rfl
  · cases hks

private theorem keeps_single (hks : (match ks with | [k'] => k == .list k' | _ => false) = true) (hps : FitsAll ks ps) :
    assemble read' .single none (ps.map Piece.placeless) =
      placelessResult Piece.placeless (assemble read .single l ps) := by
  split at hks
  · obtain ⟨q, rfl, -⟩ := hps.one
    rfl
  · cases hks

private theorem keeps_appended
    (hks : (match ks with
      | [.list k₁, k₂] | [.list k₁, _, k₂] => k == .list k₁ && k₂.le k₁
      | _ => false) = true)
    (hps : FitsAll ks ps) :
    assemble read' .appended none (ps.map Piece.placeless) =
      placelessResult Piece.placeless (assemble read .appended l ps) := by
  split at hks
  · obtain ⟨_, _, rfl, ⟨found, rfl, -⟩, hrest⟩ := hps.more
    obtain ⟨q, rfl, -⟩ := hrest.one
    change Except.ok (Piece.many _) = Except.ok (Piece.many (placelessPieces _))
    rw [placelessPieces_eq, placelessPieces_eq, List.map_append]
    rfl
  · obtain ⟨_, _, rfl, ⟨found, rfl, -⟩, hrest⟩ := hps.more
    obtain ⟨_, _, rfl, -, hrest⟩ := hrest.more
    obtain ⟨q, rfl, -⟩ := hrest.one
    change Except.ok (Piece.many _) = Except.ok (Piece.many (placelessPieces _))
    rw [placelessPieces_eq, placelessPieces_eq, List.map_append]
    rfl
  · cases hks

end

/-- A rule that respects the kinds builds the same without places, unless it is that of string literals. -/
theorem Rule.keeps {r : Rule} (hr : r.respectsKinds = true) (hstring : r.construct ≠ .stringLiteral) {l : Location}
    {ps : List Piece} (hps : FitsAll (r.body.map Symbol.kind) ps) :
    assemble read' r.construct none (ps.map Piece.placeless) =
      placelessResult Piece.placeless (assemble read r.construct l ps) := by
  have hkeeps {c : Construct} (hc : c ∉ [.same, .single, .appended, .stringLiteral])
      (hkinds : (c.result.le r.head.kind &&
        (c.isFree || c.shapes.any (fun shape => matchesShape shape (r.body.map Symbol.kind)))) = true) :
      assemble read' c none (ps.map Piece.placeless) = placelessResult Piece.placeless (assemble read c l ps) := by
    rw [Bool.and_eq_true, Bool.or_eq_true] at hkinds
    exact c.keeps hc ⟨hps.sound, fun hfree => hps.oneOf (hkinds.2.resolve_left (by simp [hfree]))⟩
  unfold Rule.respectsKinds at hr
  cases hconstruct : r.construct with
  | same =>
    rw [hconstruct] at hr
    exact keeps_same hr hps
  | single =>
    rw [hconstruct] at hr
    exact keeps_single hr hps
  | appended =>
    rw [hconstruct] at hr
    exact keeps_appended hr hps
  | stringLiteral => exact absurd hconstruct hstring
  | _ =>
    rw [hconstruct] at hr
    exact hkeeps (by decide) hr

/-- The tokens that a piece has. -/
def coverage (Covers : Token → Prop) : Trait where
  Covers := Covers
  Shape _ := True
  Holds _ := True
  make _ _ _ := trivial
  incidental _ := trivial
  receiver _ := trivial
  parameter _ _ := trivial

theorem stringLiteral_placeless {Covers : Token → Prop} (hread : Quotation.AgreeOn Covers read read') {l l' : Location}
    {qs qs' : List Piece} (hqs : (coverage Covers).OnAll qs) (h : qs.map Piece.placeless = qs'.map Piece.placeless) :
    placelessResult Piece.placeless (assemble read .stringLiteral l [.many qs]) =
      placelessResult Piece.placeless (assemble read' .stringLiteral l' [.many qs']) := by
  have htokens : (qs.filterMap Piece.token?).map Token.placeless = (qs'.filterMap Piece.token?).map Token.placeless := by
    rw [← filterMap_placeless token?_placeless, h, filterMap_placeless token?_placeless]
  have hwords : (qs.filterMap Piece.token?).map Token.word = (qs'.filterMap Piece.token?).map Token.word := by
    have hmap := congrArg (List.map Token.word) htokens
    rw [List.map_map, List.map_map] at hmap
    exact hmap
  have hcovers : ∀ t ∈ qs.filterMap Piece.token?, Covers t := by
    intro t ht
    obtain ⟨q, hq, hqt⟩ := List.mem_filterMap.mp ht
    have hon := Trait.onAll_iff.mp hqs q hq
    cases q <;> cases hqt
    exact hon
  change placelessResult _ (Except.map _ _) = placelessResult _ (Except.map _ _)
  rcases placelessResult_cases (Quotation.literal_placeless hwords (fun t ht => hread t (hcovers t ht))) with ⟨e, e', he, he', heq⟩ | ⟨x, x', hx, hx', heq⟩
  · rw [he, he']
    exact congrArg Except.error heq
  · rw [hx, hx']
    exact congrArg (Except.ok ∘ Piece.expr) heq

/-- A rule builds the same from pieces that are the same up to places. -/
theorem Rule.placeless {r : Rule} (hr : r.respectsKinds = true) {Covers : Token → Prop} (hread : Quotation.AgreeOn Covers read read')
    {l l' : Location} {ps ps' : List Piece} (hps : FitsAll (r.body.map Symbol.kind) ps)
    (hps' : FitsAll (r.body.map Symbol.kind) ps') (hon : (coverage Covers).OnAll ps)
    (h : ps.map Piece.placeless = ps'.map Piece.placeless) :
    placelessResult Piece.placeless (assemble read r.construct l ps) =
      placelessResult Piece.placeless (assemble read' r.construct l' ps') := by
  by_cases hstring : r.construct = .stringLiteral
  · have hone {qs : List Piece} (hqs : FitsAll (r.body.map Symbol.kind) qs) : ∃ rs, qs = [.many rs] := by
      unfold Rule.respectsKinds at hr
      rw [hstring] at hr
      rw [Bool.and_eq_true, Bool.or_eq_true] at hr
      obtain ⟨_, _, rfl, ⟨rs, rfl, -⟩, rfl⟩ := hqs.oneOf (hr.2.resolve_left (by decide))
      exact ⟨rs, rfl⟩
    obtain ⟨qs, rfl⟩ := hone hps
    obtain ⟨qs', rfl⟩ := hone hps'
    rw [hstring]
    exact stringLiteral_placeless hread hon.1 (by simpa [Piece.placeless] using h)
  · have hleft : assemble read' r.construct none (ps.map Piece.placeless) =
        placelessResult Piece.placeless (assemble read r.construct l ps) := Rule.keeps hr hstring hps
    rw [← hleft, h]
    exact Rule.keeps hr hstring hps'

namespace Derivation

theorem Of.parts {g : RuleTable} {s : Symbol} {r : Rule} {l : Location} {parts : List Derivation}
    (h : (Derivation.node r l parts).Of g s) : AllOf g r.body parts := by
  cases h
  assumption

mutual

/-- Derivations that are the same up to places build the same up to places. -/
theorem build_placeless (hregular : ∀ text x, read text = .ok x → (Node.expr x).Regular)
    (hregular' : ∀ text x, read' text = .ok x → (Node.expr x).Regular) {Covers : Token → Prop}
    (hread : Quotation.AgreeOn Covers read read') {s : Symbol} {d d' : Derivation} (hd : d.Of ruleTable s) (hd' : d'.Of ruleTable s)
    (htokens : ∀ t ∈ d.tokens, t.Spelled ∧ Covers t) (htokens' : ∀ t ∈ d'.tokens, t.Spelled) (hplaced : d.Placed)
    (h : d.placeless = d'.placeless) :
    placelessResult Piece.placeless (d.build read) = placelessResult Piece.placeless (d'.build read') := by
  cases hd with
  | leaf t =>
    cases d' with
    | leaf t' =>
      simp only [placeless, leaf.injEq] at h
      exact congrArg (Except.ok ∘ Piece.token) h
    | node r l parts => simp [placeless] at h
  | node hr hparts =>
    rename_i r l parts
    cases d' with
    | leaf t' => simp [placeless] at h
    | node r' l' parts' =>
      simp only [placeless, node.injEq, true_and] at h
      obtain ⟨rfl, h⟩ := h
      have hparts' := hd'.parts
      have hspelled : ∀ t ∈ tokensAll parts, t.Spelled := fun t ht => (htokens t ht).1
      simp only [build]
      rcases placelessResult_cases (buildAll_placeless hregular hregular' hread hparts hparts' htokens htokens' hplaced.2 h) with
        ⟨e, e', he, he', heq⟩ | ⟨ps, ps', hps, hps', heq⟩
      · rw [he, he']
        exact congrArg Except.error heq
      · rw [hps, hps']
        have hon : (coverage Covers).OnAll ps := buildAll_on (T := coverage Covers) hregular (fun _ _ _ _ _ _ _ => trivial)
          (fun _ _ _ _ _ _ _ _ _ _ _ _ _ => trivial) hparts htokens hplaced.2 hps
        exact Rule.placeless (Grammar.respectsKinds _ (Grammar.mem_ruleTable.mp hr)) hread
          (buildAll_fits hregular hparts hspelled hps) (buildAll_fits hregular' hparts' htokens' hps') hon heq

theorem buildAll_placeless (hregular : ∀ text x, read text = .ok x → (Node.expr x).Regular)
    (hregular' : ∀ text x, read' text = .ok x → (Node.expr x).Regular) {Covers : Token → Prop}
    (hread : Quotation.AgreeOn Covers read read') {symbols : List Symbol} {parts parts' : List Derivation} (hparts : AllOf ruleTable symbols parts)
    (hparts' : AllOf ruleTable symbols parts') (htokens : ∀ t ∈ tokensAll parts, t.Spelled ∧ Covers t)
    (htokens' : ∀ t ∈ tokensAll parts', t.Spelled) (hplaced : AllPlaced parts)
    (h : placelessDerivations parts = placelessDerivations parts') :
    placelessResult (List.map Piece.placeless) (buildAll read parts) =
      placelessResult (List.map Piece.placeless) (buildAll read' parts') := by
  cases hparts with
  | nil =>
    cases hparts'
    rfl
  | cons hd hrest =>
    cases hparts' with
    | cons hd' hrest' =>
      simp only [tokensAll, List.mem_append] at htokens htokens'
      simp only [placelessDerivations, List.cons.injEq] at h
      simp only [buildAll]
      rcases placelessResult_cases (build_placeless hregular hregular' hread hd hd' (fun t ht => htokens t (.inl ht))
        (fun t ht => htokens' t (.inl ht)) hplaced.1 h.1) with ⟨e, e', he, he', heq⟩ | ⟨p, p', hp, hp', heq⟩
      · rw [he, he']
        exact congrArg Except.error heq
      · rw [hp, hp']
        rcases placelessResult_cases (buildAll_placeless hregular hregular' hread hrest hrest' (fun t ht => htokens t (.inr ht))
          (fun t ht => htokens' t (.inr ht)) hplaced.2 h.2) with ⟨e, e', he, he', heq'⟩ | ⟨ps, ps', hps, hps', heq'⟩
        · rw [he, he']
          exact congrArg Except.error heq'
        · rw [hps, hps']
          exact congrArg Except.ok (congrArg₂ List.cons heq heq')

end

end Derivation
end Dartlet.Syntax
