import Dartlet.Syntax.Chart

/-!
# What rules derive

The terminals that symbols stand for by the rules of a table, the categories that are awaited after
some terminals have been read, and the items that are valid there. The terminals can be continued to
a sentence exactly as long as a valid item expects the next one.
-/

namespace Dartlet.Syntax.RuleTable

/-- The terminals that a list of symbols stands for by the rules of a table. -/
inductive Derives (g : RuleTable) : List Symbol → List Terminal → Prop
  | nil : Derives g [] []
  | tok {rest : List Symbol} {w : List Terminal} (t : Terminal) :
    Derives g rest w → Derives g (.tok t :: rest) (t :: w)
  | cat {r : Rule} {rest : List Symbol} {v w : List Terminal} :
    r ∈ g.rules → Derives g r.body v → Derives g rest w → Derives g (.cat r.head :: rest) (v ++ w)

variable {g : RuleTable} {start c : Category}

namespace Derives

theorem append {a b : List Symbol} {v w : List Terminal} (ha : g.Derives a v) (hb : g.Derives b w) :
    g.Derives (a ++ b) (v ++ w) := by
  induction ha with
  | nil => exact hb
  | tok t _ ih => exact .tok t ih
  | cat hr hbody _ _ ih =>
    rw [List.append_assoc]
    exact .cat hr hbody ih

theorem split {a b : List Symbol} {w : List Terminal} (h : g.Derives (a ++ b) w) :
    ∃ u v, w = u ++ v ∧ g.Derives a u ∧ g.Derives b v := by
  induction a generalizing w with
  | nil => exact ⟨[], w, rfl, .nil, h⟩
  | cons x a ih =>
    cases h with
    | tok t hrest =>
      obtain ⟨u, v, rfl, hu, hv⟩ := ih hrest
      exact ⟨t :: u, v, rfl, .tok t hu, hv⟩
    | cat hr hbody hrest =>
      obtain ⟨u, v, rfl, hu, hv⟩ := ih hrest
      exact ⟨_ ++ u, v, by rw [List.append_assoc], .cat hr hbody hu, hv⟩

theorem single {r : Rule} {w : List Terminal} (hr : r ∈ g.rules) (h : g.Derives r.body w) :
    g.Derives [.cat r.head] w := by
  simpa using Derives.cat hr h .nil

theorem of_single {w : List Terminal} (h : g.Derives [.cat c] w) :
    ∃ r ∈ g.rules, r.head = c ∧ g.Derives r.body w := by
  cases h with
  | cat hr hbody hrest =>
    cases hrest
    exact ⟨_, hr, rfl, by simpa using hbody⟩

theorem of_tok {t : Terminal} {w : List Terminal} (h : g.Derives [.tok t] w) : w = [t] := by
  cases h with
  | tok _ hrest =>
    cases hrest
    rfl

end Derives

/-- What makes a table fit for charts: no rule has an empty body, and every category stands for
something. -/
structure Proper (g : RuleTable) : Prop where
  nonempty : ∀ r ∈ g.rules, r.body ≠ []
  productive : ∀ c : Category, ∃ w, g.Derives [.cat c] w

/-- Without empty bodies, only no symbols derive no terminals. -/
theorem Derives.eq_nil (hg : g.Proper) {a : List Symbol} {w : List Terminal} (h : g.Derives a w) (hw : w = []) :
    a = [] := by
  induction h with
  | nil => rfl
  | tok t _ _ => cases hw
  | cat hr _ _ ih _ => exact absurd (ih (List.append_eq_nil_iff.mp hw).1) (hg.nonempty _ hr)

theorem Proper.derives_some (hg : g.Proper) (a : List Symbol) : ∃ w, g.Derives a w := by
  induction a with
  | nil => exact ⟨[], .nil⟩
  | cons x a ih =>
    obtain ⟨w, hw⟩ := ih
    cases x with
    | tok t => exact ⟨t :: w, .tok t hw⟩
    | cat c =>
      obtain ⟨v, hv⟩ := hg.productive c
      exact ⟨v ++ w, by simpa using hv.append hw⟩

/-- A category that may come next after some terminals in a sentence of the category `start`. -/
inductive Awaited (g : RuleTable) (start : Category) : Category → List Terminal → Prop
  | start : Awaited g start start []
  | inside {r : Rule} {c : Category} {u v : List Terminal} {before after : List Symbol} :
    r ∈ g.rules → Awaited g start r.head u → r.body = before ++ .cat c :: after → g.Derives before v →
      Awaited g start c (u ++ v)

/-- Whatever an awaited category stands for can be continued to a sentence. -/
theorem Awaited.sentence (hg : g.Proper) {u : List Terminal} (h : g.Awaited start c u) {v : List Terminal}
    (hv : g.Derives [.cat c] v) : ∃ z, g.Derives [.cat start] (u ++ v ++ z) := by
  induction h generalizing v with
  | start => exact ⟨[], by simpa using hv⟩
  | @inside r c u x before after hr _ hbody hx ih =>
    obtain ⟨y, hy⟩ := hg.derives_some after
    have hrule : g.Derives r.body (x ++ (v ++ y)) := by
      rw [hbody]
      exact hx.append (hv.append hy)
    obtain ⟨z, hz⟩ := ih (.single hr hrule)
    exact ⟨y ++ z, by simpa using hz⟩

/-- An item that is right after some terminals: its rule is awaited where the item began, and the
parts read stand for what has been read since. -/
structure Valid (g : RuleTable) (start : Category) (x : List Terminal) (i : Item) (r : Rule)
    (u v : List Terminal) : Prop where
  rule : g.rules[i.rule]? = some r
  dot : i.dot ≤ r.body.length
  word : x = u ++ v
  origin : i.origin = u.length
  awaited : g.Awaited start r.head u
  read : g.Derives (r.body.take i.dot) v

theorem body_eq {n : Nat} {r : Rule} (h : g.rules[n]? = some r) : g.body n = r.body := by
  simp only [body, h]

theorem head?_eq {n : Nat} {r : Rule} (h : g.rules[n]? = some r) : g.head? n = some r.head := by
  simp only [head?, h, Option.map_some]

theorem next?_eq {i : Item} {r : Rule} (h : g.rules[i.rule]? = some r) : g.next? i = r.body[i.dot]? := by
  rw [next?, body_eq h]

/-- The symbols after an item's dot: the first is the one it expects, the others come after it. -/
theorem next?_of_drop {i : Item} {r : Rule} {s : Symbol} {rest : List Symbol} (hr : g.rules[i.rule]? = some r)
    (h : r.body.drop i.dot = s :: rest) : g.next? i = some s ∧ r.body.drop i.advance.dot = rest := by
  constructor
  · rw [next?_eq hr, ← List.head?_drop, h, List.head?_cons]
  · rw [show i.advance.dot = i.dot + 1 from rfl, ← List.drop_drop, h, List.drop_one, List.tail_cons]

namespace Valid

variable {x u v : List Terminal} {i : Item} {r : Rule}

theorem mem (h : g.Valid start x i r u v) : r ∈ g.rules := Array.mem_of_getElem? h.rule

/-- The parts read and the next one, if an item expects one. -/
theorem body_split (h : g.Valid start x i r u v) {s : Symbol} (hs : g.next? i = some s) :
    r.body = r.body.take i.dot ++ s :: r.body.drop (i.dot + 1) := by
  rw [next?_eq h.rule] at hs
  obtain ⟨hlt, rfl⟩ := List.getElem?_eq_some_iff.mp hs
  rw [← List.drop_eq_getElem_cons, List.take_append_drop]

/-- Reading what the next part stands for advances an item. -/
theorem advance (h : g.Valid start x i r u v) {s : Symbol} (hs : g.next? i = some s) {w : List Terminal}
    (hw : g.Derives [s] w) : g.Valid start (x ++ w) i.advance r u (v ++ w) := by
  rw [next?_eq h.rule] at hs
  obtain ⟨hlt, hget⟩ := List.getElem?_eq_some_iff.mp hs
  refine ⟨h.rule, hlt, by rw [h.word, List.append_assoc], h.origin, h.awaited, ?_⟩
  change g.Derives (r.body.take (i.dot + 1)) (v ++ w)
  rw [List.take_add_one, hs]
  exact h.read.append hw

/-- An item with a part read comes from the item before that part. -/
theorem retreat (h : g.Valid start x i r u v) {d : Nat} (hd : i.dot = d + 1) :
    ∃ s y w, r.body[d]? = some s ∧ v = y ++ w ∧ g.Derives [s] w ∧
      g.Valid start (u ++ y) ⟨i.rule, d, i.origin⟩ r u y := by
  have hlt : d < r.body.length := by
    have := h.dot
    omega
  have hread := h.read
  rw [hd, List.take_add_one, List.getElem?_eq_getElem hlt] at hread
  obtain ⟨y, w, rfl, hy, hw⟩ := hread.split
  exact ⟨_, y, w, List.getElem?_eq_getElem hlt, rfl, hw, h.rule, Nat.le_of_lt hlt, rfl, h.origin, h.awaited, hy⟩

/-- A complete item has read what its category stands for. -/
theorem complete (h : g.Valid start x i r u v) (hc : g.completed? i = some c) :
    r.head = c ∧ g.Derives [.cat c] v := by
  unfold completed? at hc
  split at hc
  · cases hc
  · rename_i hnext
    rw [head?_eq h.rule] at hc
    cases hc
    rw [next?_eq h.rule, List.getElem?_eq_none_iff] at hnext
    have hread := h.read
    rw [List.take_of_length_le hnext] at hread
    exact ⟨rfl, .single h.mem hread⟩

/-- What has been read when an item is valid can be continued to a sentence. -/
theorem viable (hg : g.Proper) (h : g.Valid start x i r u v) : ∃ z, g.Derives [.cat start] (x ++ z) := by
  obtain ⟨y, hy⟩ := hg.derives_some (r.body.drop i.dot)
  have hrule : g.Derives r.body (v ++ y) := by
    rw [← List.take_append_drop i.dot r.body]
    exact h.read.append hy
  obtain ⟨z, hz⟩ := h.awaited.sentence hg (.single h.mem hrule)
  exact ⟨y ++ z, by simpa [h.word] using hz⟩

/-- Where an item expects a category, the rules of the category begin. -/
theorem predict (h : g.Valid start x i r u v) (hc : g.next? i = some (.cat c)) : g.Awaited start c x := by
  rw [h.word]
  exact .inside h.mem h.awaited (h.body_split hc) h.read

end Valid

/-- A rule that is awaited begins with a valid item. -/
theorem Awaited.valid {x : List Terminal} {n : Nat} {r : Rule} (hn : g.rules[n]? = some r)
    (h : g.Awaited start r.head x) : g.Valid start x ⟨n, 0, x.length⟩ r x [] :=
  ⟨hn, Nat.zero_le _, (List.append_nil x).symm, rfl, h, .nil⟩

theorem exists_rule {r : Rule} (hr : r ∈ g.rules) : ∃ n : Nat, g.rules[n]? = some r := by
  obtain ⟨n, hn, hget⟩ := Array.mem_iff_getElem.mp hr
  exact ⟨n, Array.getElem?_eq_some_iff.mpr ⟨hn, hget⟩⟩

/-- If the symbols after an item's dot derive some terminals, then each of these is expected by an
item that is valid before it. -/
private theorem Derives.expects {syms : List Symbol} {w : List Terminal} (hw : g.Derives syms w)
    {x u v y z : List Terminal} {i : Item} {r : Rule} {a : List Symbol} {t : Terminal}
    (hi : g.Valid start x i r u v) (hsyms : r.body.drop i.dot = syms ++ a) (ht : w = y ++ t :: z) :
    ∃ j r' u' v', g.Valid start (x ++ y) j r' u' v' ∧ g.next? j = some (.tok t) := by
  induction hw generalizing x u v y z i r a with
  | nil => simp at ht
  | tok t' _ ih =>
    obtain ⟨hs, hrest⟩ := next?_of_drop hi.rule hsyms
    cases y with
    | nil =>
      obtain ⟨rfl, -⟩ := List.cons.inj ht
      exact ⟨i, r, u, v, by simpa using hi, hs⟩
    | cons t'' y =>
      obtain ⟨rfl, hw⟩ := List.cons.inj ht
      obtain ⟨j, r', u', v', hj, hjt⟩ := ih (hi.advance hs (.tok t' .nil)) hrest hw
      exact ⟨j, r', u', v', by simpa using hj, hjt⟩
  | @cat r₁ rest v₁ w₁ hr hbody _ ih₁ ih₂ =>
    obtain ⟨hs, hrest⟩ := next?_of_drop hi.rule hsyms
    rcases List.append_eq_append_iff.mp ht with ⟨y', rfl, hw⟩ | ⟨z', hv, hz⟩
    · obtain ⟨j, r', u', v', hj, hjt⟩ := ih₂ (hi.advance hs (.single hr hbody)) hrest hw
      exact ⟨j, r', u', v', by simpa using hj, hjt⟩
    · cases z' with
      | nil =>
        -- The category ends just before the terminal, which the rest of the rule begins with.
        simp only [List.append_nil, List.nil_append] at hv hz
        subst hv
        obtain ⟨j, r', u', v', hj, hjt⟩ := ih₂ (y := []) (hi.advance hs (.single hr hbody)) hrest hz.symm
        exact ⟨j, r', u', v', by simpa using hj, hjt⟩
      | cons t' z' =>
        obtain ⟨rfl, -⟩ := List.cons.inj hz
        obtain ⟨n, hn⟩ := exists_rule hr
        exact ih₁ (a := []) ((hi.predict hs).valid hn) (by simp) hv

/-- If some terminals and one more begin a sentence, then an item that is valid after the former
expects the latter. -/
theorem exists_expecting {x z : List Terminal} {t : Terminal} (h : g.Derives [.cat start] (x ++ t :: z)) :
    ∃ i r u v, g.Valid start x i r u v ∧ g.next? i = some (.tok t) := by
  obtain ⟨r, hr, rfl, hbody⟩ := h.of_single
  obtain ⟨n, hn⟩ := exists_rule hr
  have hvalid := (@Awaited.start g r.head).valid hn
  simpa using hbody.expects (a := []) hvalid (by simp) rfl

end Dartlet.Syntax.RuleTable
