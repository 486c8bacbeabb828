import Mathlib
import ScriptHost.TextArguments
/-!
# The grammar of arguments given as text

A list of tokens is read by a machine with two states: a minus waits for its number, or none does.
The grammar of the texts that it accepts does not mention the machine.  It speaks of the tokens
before a token: a minus waits where an operator stands after the last token that uses a sign up.

One token is compared with the machine's step at first; the reading of the whole list is then an
induction on the tokens that are left, with those that have been read before them.

## Main statements

* `signPending`, `signPending_eq_true_iff`: where a minus waits.
* `Fits`, `StandsFor`, `Offends`: what is asked of a token, what it stands for, and how it is
  refused.
* `spell_eq_none_iff`, `spell_eq_some_iff`, `spell_eq_error_iff`: one step of the machine.
* `ofTokens_eq_ok_iff`, `ofTokens_eq_error_iff`: a run of the machine.
* `Grammatical`, `grammatical_iff_fits`: the grammar.
* `bind_grammatical`: the arguments of a text, and the reason why a text is refused.
-/

namespace ScriptHost

/-! ## Numerals with a minus -/

namespace Numeral

/-- An unsigned decimal is read in the same way after a minus. -/
theorem decimal?_true (text : List Char) {m : Numeral} (h : decimal? true text = some m) :
    ∃ n, decimal? false text = some n ∧ m.toFloat = -n.toFloat := by
  unfold decimal? at h ⊢
  dsimp only at h ⊢
  split at h
  · cases h
  · rename_i hdigits
    obtain ⟨power, hpower, hm⟩ := Option.bind_eq_some_iff.1 h
    obtain rfl := Option.some.inj hm
    rw [if_neg hdigits, hpower]
    exact ⟨_, rfl, rfl⟩

/-- What begins with a sign is no unsigned decimal. -/
theorem decimal?_sign {c : Char} (hc : c = '-' ∨ c = '+') (negative : Bool) (rest : List Char) :
    decimal? negative (c :: rest) = none := by
  rcases hc with rfl | rfl <;> rfl

/-- A numeral after a minus is a numeral without the minus, and stands for the opposite. -/
theorem parse?_minus {s : String} {m : Numeral} (h : parse? ("-" ++ s) = some m) :
    ∃ n, parse? s = some n ∧ m.toFloat = -n.toFloat := by
  have hsplit : splitSign ("-" ++ s).toList = (true, s.toList) := by
    rw [String.toList_append]
    rfl
  unfold parse? at h ⊢
  rw [hsplit] at h
  dsimp only at h
  by_cases hsign : ∃ c rest, s.toList = c :: rest ∧ (c = '-' ∨ c = '+')
  · -- a second sign is neither a word nor a digit
    obtain ⟨c, rest, hs, hc⟩ := hsign
    rw [hs, decimal?_sign hc] at h
    rcases hc with rfl | rfl <;> simp at h
  · have hsame : splitSign s.toList = (false, s.toList) := by
      unfold splitSign
      split
      · exact absurd ⟨_, _, ‹_›, .inl rfl⟩ hsign
      · exact absurd ⟨_, _, ‹_›, .inr rfl⟩ hsign
      · rfl
    rw [hsame]
    dsimp only
    split at h
    · rename_i hword
      obtain rfl := Option.some.inj h
      rw [if_pos hword]
      exact ⟨_, rfl, rfl⟩
    · rename_i hword
      rw [if_neg hword]
      split at h
      · rename_i hnan
        obtain rfl := Option.some.inj h
        rw [if_pos hnan]
        exact ⟨.nan, rfl, by decide⟩
      · rename_i hnan
        rw [if_neg hnan]
        exact decimal?_true _ h

end Numeral

/-! ## Tokens and signs -/

namespace Token

/-- Whether the token is an operator. -/
def isOperator (t : Token) : Bool :=
  match t.kind with
  | .operator | .unaryOperator => true
  | _ => false

/-- Whether a minus before the token waits no longer after it: it belongs to the token, or is lost
there.  A variable that is defined leaves the minus waiting. -/
def consumesSign (lookup : String → Option Binding) (t : Token) : Bool :=
  match t.kind with
  | .variable => (lookup t.surface).isNone
  | .stringParam | .literal | .hexLiteral => true
  | _ => false

/-- No operator uses a sign up. -/
theorem consumesSign_eq_false {lookup : String → Option Binding} {t : Token}
    (h : t.isOperator = true) : t.consumesSign lookup = false := by
  unfold isOperator at h
  unfold consumesSign
  split at h
  · rename_i hk
    rw [hk]
  · rename_i hk
    rw [hk]
  · cases h

end Token

namespace TextArguments

variable (lookup : String → Option Binding)

/-- Whether a minus waits after some tokens: an operator occurs after the last token that uses a
sign up. -/
def signPending (before : List Token) : Bool :=
  (before.reverse.takeWhile fun t => !t.consumesSign lookup).any Token.isOperator

/-- What becomes of a waiting minus at a token. -/
def signAfter (minus : Bool) (t : Token) : Bool :=
  !t.consumesSign lookup && (t.isOperator || minus)

theorem signPending_concat (before : List Token) (t : Token) :
    signPending lookup (before ++ [t]) = signAfter lookup (signPending lookup before) t := by
  unfold signPending signAfter
  rw [List.reverse_append, List.reverse_singleton, List.singleton_append, List.takeWhile_cons]
  cases t.consumesSign lookup with
  | true => rfl
  | false => rfl

/-- A minus waits just if there is an operator with nothing after it that uses the sign up. -/
theorem signPending_eq_true_iff (before : List Token) :
    signPending lookup before = true ↔
      ∃ first o last, before = first ++ o :: last ∧ o.isOperator = true ∧
        ∀ t ∈ last, t.consumesSign lookup = false := by
  induction before using List.reverseRecOn with
  | nil => simp [signPending]
  | append_singleton before t ih =>
      rw [signPending_concat]
      unfold signAfter
      rw [Bool.and_eq_true, Bool.or_eq_true, Bool.not_eq_true', ih]
      constructor
      · rintro ⟨hkeep, hop | ⟨first, o, last, rfl, ho, hlast⟩⟩
        · exact ⟨before, t, [], rfl, hop, fun _ h => absurd h List.not_mem_nil⟩
        · refine ⟨first, o, last ++ [t], by simp, ho, fun u hu => ?_⟩
          rcases List.mem_append.1 hu with hu | hu
          · exact hlast u hu
          · rw [List.mem_singleton.1 hu]
            exact hkeep
      · rintro ⟨first, o, last, hsplit, ho, hlast⟩
        rcases List.eq_nil_or_concat last with rfl | ⟨last, u, rfl⟩
        · obtain ⟨rfl, hto⟩ := List.append_inj' hsplit rfl
          obtain rfl : t = o := List.head_eq_of_cons_eq hto
          exact ⟨Token.consumesSign_eq_false ho, .inl ho⟩
        · rw [List.concat_eq_append] at hsplit hlast
          rw [← List.cons_append, ← List.append_assoc] at hsplit
          obtain ⟨rfl, htu⟩ := List.append_inj' hsplit rfl
          obtain rfl : t = u := List.head_eq_of_cons_eq htu
          exact ⟨hlast t (List.mem_append_right _ (List.mem_singleton.2 rfl)),
            .inr ⟨first, o, last, rfl, ho, fun v hv => hlast v (List.mem_append_left _ hv)⟩⟩

/-! ## One token -/

/-- A hexadecimal numeral is `0x` or `0X` followed by one or more hexadecimal digits. -/
def IsHexNumeral (surface : String) : Prop :=
  ∃ x digits, surface.toList = '0' :: x :: digits ∧ (x = 'x' ∨ x = 'X') ∧ digits ≠ [] ∧
    ∀ c ∈ digits, c.isDigit = true ∨ ('a' ≤ c ∧ c ≤ 'f') ∨ ('A' ≤ c ∧ c ≤ 'F')

/-- What is asked of a token that stands after some others. -/
def Fits (before : List Token) (t : Token) : Prop :=
  match t.kind with
  | .variable | .stringParam => True
  | .literal =>
    (Numeral.parse? (signText (signPending lookup before) ++ t.surface)).isSome = true
  | .hexLiteral => IsHexNumeral t.surface
  | .operator | .unaryOperator =>
    (t.surface = "-" ∨ t.surface = "-u") ∧ signPending lookup before = false
  | .function | .openParen | .comma | .closeParen | .marker => False

/-- The argument that a token stands for, after a minus or not. -/
inductive StandsFor (minus : Bool) (t : Token) : Binding → Prop where
  | resolved {b : Binding} (hk : t.kind = .variable) (hb : lookup t.surface = some b) :
      StandsFor minus t b
  | unresolved (hk : t.kind = .variable) (hb : lookup t.surface = none) :
      StandsFor minus t (.value (.str t.surface))
  | string (hk : t.kind = .stringParam) : StandsFor minus t (.value (.str t.surface))
  | literal {n : Numeral} (hk : t.kind = .literal) (hn : Numeral.parse? t.surface = some n) :
      StandsFor minus t (.value (.number (if minus then -n.toFloat else n.toFloat)))
  | hexLiteral {x : Float} (hk : t.kind = .hexLiteral) (hx : hexNumeral? t.surface = some x) :
      StandsFor minus t (.value (.number (if minus then -x else x)))

/-- The error for a token that does not fit after some others. -/
inductive Offends (before : List Token) (t : Token) : InvocationError → Prop where
  | number (hk : t.kind = .literal ∨ t.kind = .hexLiteral) (h : ¬ Fits lookup before t) :
      Offends before t (.notANumber (signText (signPending lookup before) ++ t.surface))
  | operator (ho : t.isOperator = true) (h : ¬ Fits lookup before t) :
      Offends before t (.operatorRefused t.surface)
  | function (hk : t.kind = .function) : Offends before t (.functionRefused t.surface)
  | other (hk : t.kind ∈ [.openParen, .comma, .closeParen, .marker]) :
      Offends before t (.tokenRefused t.surface)

/-- The argument that a single token gives; an operator gives none. -/
def spell (minus : Bool) (t : Token) : Except InvocationError (Option Binding) :=
  match t.kind with
  | .variable => .ok (some ((lookup t.surface).getD (.value (.str t.surface))))
  | .stringParam => .ok (some (.value (.str t.surface)))
  | .literal | .hexLiteral => (number minus t).map some
  | .operator | .unaryOperator =>
    if (t.surface = "-" ∨ t.surface = "-u") ∧ !minus then .ok none
    else .error (.operatorRefused t.surface)
  | .function => .error (.functionRefused t.surface)
  | .openParen | .comma | .closeParen | .marker => .error (.tokenRefused t.surface)

/-- A step of the machine, and the rest of the run. -/
theorem ofTokens_cons (minus : Bool) (t : Token) (rest : List Token) :
    ofTokens lookup minus (t :: rest) = (do
      let first ← spell lookup minus t
      let others ← ofTokens lookup (signAfter lookup minus t) rest
      return first.toList ++ others) := by
  rw [ofTokens]
  unfold spell signAfter Token.consumesSign Token.isOperator
  match hk : t.kind with
  | .variable => cases lookup t.surface <;> rfl
  | .literal | .hexLiteral => cases number minus t <;> rfl
  | .operator | .unaryOperator =>
      dsimp only
      split
      · exact (bind_pure _).symm
      · rfl
  | .stringParam | .function | .openParen | .comma | .closeParen | .marker => rfl

/-- The digits of a hexadecimal numeral are those of the grammar. -/
theorem hexDigit?_isSome_iff (c : Char) :
    (hexDigit? c).isSome = true ↔
      c.isDigit = true ∨ ('a' ≤ c ∧ c ≤ 'f') ∨ ('A' ≤ c ∧ c ≤ 'F') := by
  unfold hexDigit?
  split
  · simp_all
  · split
    · simp_all
    · split <;> simp_all

/-- A run of hexadecimal digits is read just if it consists of such digits. -/
theorem hexadecimal?_isSome_iff (digits : List Char) :
    (hexadecimal? digits).isSome = true ↔ ∀ c ∈ digits, (hexDigit? c).isSome = true := by
  unfold hexadecimal?
  generalize (0.0 : Float) = total
  induction digits generalizing total with
  | nil => simp
  | cons c digits ih =>
      rw [List.foldlM_cons, List.forall_mem_cons]
      cases hexDigit? c with
      | none => simp
      | some d => simpa using ih _

theorem hexNumeral?_isSome_iff (surface : String) :
    (hexNumeral? surface).isSome = true ↔ IsHexNumeral surface := by
  unfold hexNumeral? IsHexNumeral
  split
  · rename_i x digits hs
    rw [hs]
    split
    · rename_i hx
      rw [hexadecimal?_isSome_iff]
      constructor
      · intro h
        exact ⟨x, digits, rfl, hx.1, hx.2, fun c hc => (hexDigit?_isSome_iff c).1 (h c hc)⟩
      · rintro ⟨y, others, heq, _, _, h⟩ c hc
        obtain ⟨rfl, rfl⟩ := List.cons.inj (List.cons.inj heq).2
        exact (hexDigit?_isSome_iff c).2 (h c hc)
    · rename_i hx
      refine ⟨fun h => absurd h (by simp), ?_⟩
      rintro ⟨y, others, heq, hy, hne, _⟩
      obtain ⟨rfl, rfl⟩ := List.cons.inj (List.cons.inj heq).2
      exact absurd ⟨hy, hne⟩ hx
  · rename_i hs
    refine ⟨fun h => absurd h (by simp), ?_⟩
    rintro ⟨x, digits, heq, _⟩
    exact absurd heq (hs x digits)

variable {lookup} {before : List Token} {t : Token} {minus : Bool}

/-- What a token stands for, by the kind of the token. -/
theorem standsFor_iff {b : Binding} :
    StandsFor lookup minus t b ↔
      match t.kind with
      | .variable => (lookup t.surface).getD (.value (.str t.surface)) = b
      | .stringParam => .value (.str t.surface) = b
      | .literal => ∃ n, Numeral.parse? t.surface = some n ∧
          .value (.number (if minus then -n.toFloat else n.toFloat)) = b
      | .hexLiteral => ∃ x, hexNumeral? t.surface = some x ∧
          .value (.number (if minus then -x else x)) = b
      | _ => False := by
  constructor
  · rintro (⟨hk, hb⟩ | ⟨hk, hb⟩ | ⟨hk⟩ | ⟨hk, hn⟩ | ⟨hk, hx⟩) <;> simp_all
  · intro h
    match hk : t.kind with
    | .variable =>
        rw [hk] at h
        cases hb : lookup t.surface with
        | none =>
            rw [hb] at h
            exact h ▸ .unresolved hk hb
        | some c =>
            rw [hb] at h
            exact h ▸ .resolved hk hb
    | .stringParam =>
        rw [hk] at h
        exact h ▸ .string hk
    | .literal =>
        rw [hk] at h
        obtain ⟨n, hn, rfl⟩ := h
        exact .literal hk hn
    | .hexLiteral =>
        rw [hk] at h
        obtain ⟨x, hx, rfl⟩ := h
        exact .hexLiteral hk hx
    | .operator | .unaryOperator | .function | .openParen | .comma | .closeParen | .marker =>
        rw [hk] at h
        exact h.elim

/-- A literal after a minus or not, read as a whole, is the number without the sign or its
opposite. -/
theorem toFloat_of_parse?_signText {m : Numeral}
    (hm : Numeral.parse? (signText minus ++ t.surface) = some m) :
    ∃ n, Numeral.parse? t.surface = some n ∧
      m.toFloat = if minus then -n.toFloat else n.toFloat := by
  cases minus with
  | false => exact ⟨m, by rwa [signText, if_neg (by decide), String.empty_append] at hm, rfl⟩
  | true => exact Numeral.parse?_minus hm

/-- A token that is taken without giving an argument is an operator that fits. -/
theorem spell_eq_none_iff :
    spell lookup (signPending lookup before) t = .ok none ↔
      Fits lookup before t ∧ t.isOperator = true := by
  unfold spell Fits Token.isOperator
  match hk : t.kind with
  | .literal | .hexLiteral => cases number (signPending lookup before) t <;> simp [Except.map]
  | .operator | .unaryOperator => split <;> simp_all
  | .variable | .stringParam | .function | .openParen | .comma | .closeParen | .marker => simp

/-- The argument that a token gives is what it stands for, if it fits. -/
theorem spell_eq_some_iff {b : Binding} :
    spell lookup (signPending lookup before) t = .ok (some b) ↔
      Fits lookup before t ∧ StandsFor lookup (signPending lookup before) t b := by
  rw [standsFor_iff]
  unfold spell Fits number
  match hk : t.kind with
  | .literal =>
      simp only [reduceCtorEq, ↓reduceIte]
      cases hm : Numeral.parse? (signText (signPending lookup before) ++ t.surface) with
      | none => simp [Except.map]
      | some m =>
          obtain ⟨n, hn, hmn⟩ := toFloat_of_parse?_signText hm
          simp [Except.map, hn, hmn]
  | .hexLiteral =>
      simp only [↓reduceIte, ← hexNumeral?_isSome_iff]
      cases hx : hexNumeral? t.surface <;> simp [Except.map]
  | .operator | .unaryOperator =>
      by_cases hsign : (t.surface = "-" ∨ t.surface = "-u") ∧ signPending lookup before = false <;>
        simp [hsign]
  | .variable | .stringParam | .function | .openParen | .comma | .closeParen | .marker => simp

/-- How a token is refused, by the kind of the token. -/
theorem offends_iff {e : InvocationError} :
    Offends lookup before t e ↔
      match t.kind with
      | .variable | .stringParam => False
      | .literal | .hexLiteral => ¬ Fits lookup before t ∧
          .notANumber (signText (signPending lookup before) ++ t.surface) = e
      | .operator | .unaryOperator => ¬ Fits lookup before t ∧ .operatorRefused t.surface = e
      | .function => .functionRefused t.surface = e
      | .openParen | .comma | .closeParen | .marker => .tokenRefused t.surface = e := by
  constructor
  · rintro (⟨hk | hk, hfit⟩ | ⟨ho, hfit⟩ | ⟨hk⟩ | ⟨hk⟩)
    · rw [hk]
      exact ⟨hfit, rfl⟩
    · rw [hk]
      exact ⟨hfit, rfl⟩
    · unfold Token.isOperator at ho
      split at ho <;> simp_all
    · rw [hk]
    · simp only [List.mem_cons, List.not_mem_nil, or_false] at hk
      rcases hk with hk | hk | hk | hk <;> rw [hk]
  · intro h
    match hk : t.kind with
    | .variable | .stringParam =>
        rw [hk] at h
        exact h.elim
    | .literal | .hexLiteral =>
        rw [hk] at h
        exact h.2 ▸ .number (by simp [hk]) h.1
    | .operator | .unaryOperator =>
        rw [hk] at h
        exact h.2 ▸ .operator (by simp [Token.isOperator, hk]) h.1
    | .function =>
        rw [hk] at h
        exact h ▸ .function hk
    | .openParen | .comma | .closeParen | .marker =>
        rw [hk] at h
        exact h ▸ .other (by simp [hk])

/-- A token is refused just if it does not fit. -/
theorem spell_eq_error_iff {e : InvocationError} :
    spell lookup (signPending lookup before) t = .error e ↔ Offends lookup before t e := by
  rw [offends_iff]
  unfold spell Fits number
  match hk : t.kind with
  | .literal =>
      simp only [reduceCtorEq, ↓reduceIte]
      cases hm : Numeral.parse? (signText (signPending lookup before) ++ t.surface) <;>
        simp [Except.map]
  | .hexLiteral =>
      simp only [↓reduceIte, ← hexNumeral?_isSome_iff]
      cases hx : hexNumeral? t.surface <;> simp [Except.map]
  | .operator | .unaryOperator =>
      by_cases hsign : (t.surface = "-" ∨ t.surface = "-u") ∧ signPending lookup before = false <;>
        simp [hsign]
  | .variable | .stringParam | .function | .openParen | .comma | .closeParen | .marker => simp

theorem Offends.not_fits {e : InvocationError} (h : Offends lookup before t e) :
    ¬ Fits lookup before t := by
  rcases h with ⟨-, hfit⟩ | ⟨-, hfit⟩ | ⟨hk⟩ | ⟨hk⟩
  · exact hfit
  · exact hfit
  · simp [Fits, hk]
  · simp only [List.mem_cons, List.not_mem_nil, or_false] at hk
    rcases hk with hk | hk | hk | hk <;> simp [Fits, hk]

theorem StandsFor.not_operator {b : Binding} (h : StandsFor lookup minus t b) :
    t.isOperator = false := by
  rcases h with ⟨hk, -⟩ | ⟨hk, -⟩ | ⟨hk⟩ | ⟨hk, -⟩ | ⟨hk, -⟩ <;> simp [Token.isOperator, hk]

/-! ## All tokens -/

/-- The tokens, each with those before it, when `past` has been read before all of them. -/
def withPast (past : List Token) : List Token → List (List Token × Token)
  | [] => []
  | t :: rest => (past, t) :: withPast (past ++ [t]) rest

theorem mem_withPast {past tokens : List Token} {p : List Token × Token} :
    p ∈ withPast past tokens ↔
      ∃ first last, tokens = first ++ p.2 :: last ∧ p.1 = past ++ first := by
  induction tokens generalizing past with
  | nil => simp [withPast]
  | cons t rest ih =>
      rw [withPast, List.mem_cons, ih]
      constructor
      · rintro (rfl | ⟨first, last, rfl, hp⟩)
        · exact ⟨[], rest, rfl, (List.append_nil _).symm⟩
        · exact ⟨t :: first, last, rfl, by rw [hp, List.append_assoc, List.singleton_append]⟩
      · rintro ⟨first, last, hsplit, hp⟩
        cases first with
        | nil =>
            obtain ⟨rfl, rfl⟩ := List.cons.inj hsplit
            rw [List.append_nil] at hp
            exact .inl (Prod.ext hp rfl)
        | cons u first =>
            obtain ⟨rfl, rfl⟩ := List.cons.inj hsplit
            exact .inr ⟨first, last, rfl, by rw [hp, List.append_assoc, List.singleton_append]⟩

variable (lookup) in
/-- The arguments that some tokens stand for: one for each token that is no operator, in their
order. -/
def GivesArguments (past tokens : List Token) (given : List Binding) : Prop :=
  List.Forall₂ (fun p b => StandsFor lookup (signPending lookup p.1) p.2 b)
    ((withPast past tokens).filter fun p => !p.2.isOperator) given

/-- A run that succeeds: every token fits, and the arguments are what they stand for. -/
theorem ofTokens_eq_ok_iff {past tokens : List Token} {given : List Binding} :
    ofTokens lookup (signPending lookup past) tokens = .ok given ↔
      (∀ p ∈ withPast past tokens, Fits lookup p.1 p.2) ∧
        GivesArguments lookup past tokens given := by
  unfold GivesArguments
  induction tokens generalizing past given with
  | nil =>
      rw [ofTokens, withPast, List.filter_nil, List.forall₂_nil_left_iff, Except.ok.injEq]
      exact ⟨fun h => ⟨fun _ hp => absurd hp List.not_mem_nil, h.symm⟩, fun h => h.2.symm⟩
  | cons t rest ih =>
      rw [ofTokens_cons, ← signPending_concat, withPast, List.forall_mem_cons]
      match hspell : spell lookup (signPending lookup past) t with
      | .error e =>
          have hfit := (spell_eq_error_iff.1 hspell).not_fits
          exact ⟨fun h => (by cases h), fun h => absurd h.1.1 hfit⟩
      | .ok none =>
          obtain ⟨hfit, hop⟩ := spell_eq_none_iff.1 hspell
          rw [List.filter_cons_of_neg (by simp [hop]), and_iff_right hfit, ← ih]
          cases ofTokens lookup (signPending lookup (past ++ [t])) rest <;> rfl
      | .ok (some b) =>
          obtain ⟨hfit, hb⟩ := spell_eq_some_iff.1 hspell
          rw [List.filter_cons_of_pos (by simp [hb.not_operator]), and_iff_right hfit,
            List.forall₂_cons_left_iff]
          constructor
          · intro h
            cases hrest : ofTokens lookup (signPending lookup (past ++ [t])) rest with
            | error e =>
                rw [hrest] at h
                cases h
            | ok others =>
                rw [hrest] at h
                obtain rfl := Except.ok.inj h
                obtain ⟨hfits, hothers⟩ := ih.1 hrest
                exact ⟨hfits, b, others, hb, hothers, rfl⟩
          · rintro ⟨hfits, c, others, hc, hothers, rfl⟩
            -- a token stands for one argument only, since the machine gives one
            have hbc := hspell.symm.trans (spell_eq_some_iff.2 ⟨hfit, hc⟩)
            obtain rfl := Option.some.inj (Except.ok.inj hbc)
            rw [ih.2 ⟨hfits, hothers⟩]
            rfl

/-- A run that fails does so at the first token that does not fit. -/
theorem ofTokens_eq_error_iff {past tokens : List Token} {e : InvocationError} :
    ofTokens lookup (signPending lookup past) tokens = .error e ↔
      ∃ before t after, tokens = before ++ t :: after ∧
        (∀ p ∈ withPast past before, Fits lookup p.1 p.2) ∧
        Offends lookup (past ++ before) t e := by
  induction tokens generalizing past with
  | nil =>
      rw [ofTokens]
      refine ⟨fun h => (by cases h), ?_⟩
      rintro ⟨before, t, after, hsplit, -⟩
      cases before <;> cases hsplit
  | cons t rest ih =>
      rw [ofTokens_cons, ← signPending_concat]
      match hspell : spell lookup (signPending lookup past) t with
      | .error e' =>
          have hoff := spell_eq_error_iff.1 hspell
          constructor
          · intro h
            obtain rfl : e' = e := Except.error.inj h
            exact ⟨[], t, rest, rfl, fun _ hp => absurd hp List.not_mem_nil, by simpa using hoff⟩
          · rintro ⟨before, u, after, hsplit, hfits, hu⟩
            cases before with
            | nil =>
                obtain ⟨rfl, rfl⟩ := List.cons.inj hsplit
                rw [List.append_nil] at hu
                exact hspell.symm.trans (spell_eq_error_iff.2 hu) ▸ rfl
            | cons v before =>
                obtain ⟨rfl, rfl⟩ := List.cons.inj hsplit
                exact absurd (hfits (past, t) List.mem_cons_self) hoff.not_fits
      | .ok first =>
          have hfit : Fits lookup past t := by
            cases first with
            | none => exact (spell_eq_none_iff.1 hspell).1
            | some b => exact (spell_eq_some_iff.1 hspell).1
          have hrest : ((do
              let others ← ofTokens lookup (signPending lookup (past ++ [t])) rest
              return first.toList ++ others) = Except.error e) ↔
              ofTokens lookup (signPending lookup (past ++ [t])) rest = .error e := by
            cases ofTokens lookup (signPending lookup (past ++ [t])) rest with
            | error e' => exact Iff.rfl
            | ok others => exact ⟨fun h => (by cases h), fun h => (by cases h)⟩
          refine hrest.trans (ih.trans ?_)
          constructor
          · rintro ⟨before, u, after, rfl, hfits, hu⟩
            refine ⟨t :: before, u, after, rfl, List.forall_mem_cons.2 ⟨hfit, hfits⟩, ?_⟩
            rwa [List.append_assoc, List.singleton_append] at hu
          · rintro ⟨before, u, after, hsplit, hfits, hu⟩
            cases before with
            | nil =>
                obtain ⟨rfl, rfl⟩ := List.cons.inj hsplit
                rw [List.append_nil] at hu
                exact absurd hfit hu.not_fits
            | cons v before =>
                obtain ⟨rfl, rfl⟩ := List.cons.inj hsplit
                refine ⟨before, u, after, rfl, (List.forall_mem_cons.1 hfits).2, ?_⟩
                rwa [List.append_assoc, List.singleton_append]

/-! ## The grammar -/

variable (lookup) in
/-- The texts that are accepted. -/
structure Grammatical (tokens : List Token) : Prop where
  /-- There is nothing to be evaluated. -/
  plain : ∀ t ∈ tokens, t.kind ∉ [.function, .openParen, .comma, .closeParen, .marker]
  /-- An operator is a minus. -/
  minus : ∀ t ∈ tokens, t.isOperator = true → t.surface = "-" ∨ t.surface = "-u"
  /-- Between two operators something uses the sign up. -/
  apart : ∀ first o middle o' last, tokens = first ++ o :: (middle ++ o' :: last) →
    o.isOperator = true → o'.isOperator = true → ∃ t ∈ middle, t.consumesSign lookup = true
  /-- A literal is a number, together with a minus that waits for it. -/
  literals : ∀ before t after, tokens = before ++ t :: after → t.kind = .literal →
    (Numeral.parse? (signText (signPending lookup before) ++ t.surface)).isSome = true
  /-- A hexadecimal literal is a hexadecimal numeral. -/
  hexLiterals : ∀ t ∈ tokens, t.kind = .hexLiteral → IsHexNumeral t.surface

/-- What is asked of a token, by its kind. -/
theorem fits_iff :
    Fits lookup before t ↔
      t.kind ∉ [.function, .openParen, .comma, .closeParen, .marker] ∧
      (t.isOperator = true → (t.surface = "-" ∨ t.surface = "-u") ∧
        signPending lookup before = false) ∧
      (t.kind = .literal →
        (Numeral.parse? (signText (signPending lookup before) ++ t.surface)).isSome = true) ∧
      (t.kind = .hexLiteral → IsHexNumeral t.surface) := by
  unfold Fits Token.isOperator
  match hk : t.kind with
  | .variable | .stringParam | .literal | .hexLiteral | .operator | .unaryOperator | .function
  | .openParen | .comma | .closeParen | .marker => simp

/-- The grammar asks that each token fits after those before it. -/
theorem grammatical_iff_fits {tokens : List Token} :
    Grammatical lookup tokens ↔ ∀ p ∈ withPast [] tokens, Fits lookup p.1 p.2 := by
  have hpast : (∀ p ∈ withPast [] tokens, Fits lookup p.1 p.2) ↔
      ∀ before t after, tokens = before ++ t :: after → Fits lookup before t := by
    constructor
    · intro h before t after hsplit
      exact h (before, t) (mem_withPast.2 ⟨before, after, hsplit, rfl⟩)
    · rintro h ⟨before, t⟩ hp
      obtain ⟨first, last, hsplit, rfl⟩ := mem_withPast.1 hp
      exact h before t last hsplit
  rw [hpast]
  constructor
  · intro g before t after hsplit
    have ht : t ∈ tokens := by simp [hsplit]
    refine fits_iff.2 ⟨g.plain t ht, fun ho => ⟨g.minus t ht ho, ?_⟩,
      g.literals before t after hsplit, g.hexLiterals t ht⟩
    by_contra hpending
    obtain ⟨first, o, middle, rfl, ho', hmiddle⟩ :=
      (signPending_eq_true_iff lookup before).1 (Bool.eq_true_of_not_eq_false hpending)
    obtain ⟨u, hu, hconsumes⟩ := g.apart first o middle t after (by simp [hsplit]) ho' ho
    exact Bool.false_ne_true ((hmiddle u hu).symm.trans hconsumes)
  · intro h
    have hat : ∀ t ∈ tokens, ∃ before, Fits lookup before t := fun t ht => by
      obtain ⟨before, after, hsplit⟩ := List.append_of_mem ht
      exact ⟨before, h before t after hsplit⟩
    refine ⟨fun t ht => ?_, fun t ht ho => ?_, fun first o middle o' last hsplit ho ho' => ?_,
      fun before t after hsplit => (fits_iff.1 (h before t after hsplit)).2.2.1, fun t ht => ?_⟩
    · obtain ⟨before, hfit⟩ := hat t ht
      exact (fits_iff.1 hfit).1
    · obtain ⟨before, hfit⟩ := hat t ht
      exact ((fits_iff.1 hfit).2.1 ho).1
    · by_contra hnone
      have hpending : signPending lookup (first ++ o :: middle) = true :=
        (signPending_eq_true_iff lookup _).2 ⟨first, o, middle, rfl, ho, fun u hu =>
          Bool.eq_false_of_not_eq_true fun hc => hnone ⟨u, hu, hc⟩⟩
      have hfit := h (first ++ o :: middle) o' last (by simp [hsplit])
      exact Bool.false_ne_true (((fits_iff.1 hfit).2.1 ho').2.symm.trans hpending)
    · obtain ⟨before, hfit⟩ := hat t ht
      exact (fits_iff.1 hfit).2.2.2

/-- A text is accepted just if it is grammatical.  Its arguments are then the coordinates and what
its tokens stand for; otherwise the error is that of the first token that offends. -/
theorem bind_grammatical (lookup : String → Option Binding) (coords : List Int)
    (tokens : List Token) :
    (∀ args, bind lookup coords tokens = .ok args ↔
      Grammatical lookup tokens ∧ ∃ given, GivesArguments lookup [] tokens given ∧
        args = coords.map (fun c => .value (.ofInt c)) ++ given) ∧
    ((∃ args, bind lookup coords tokens = .ok args) ↔ Grammatical lookup tokens) ∧
    ∀ e, bind lookup coords tokens = .error e ↔
      ∃ before t after, tokens = before ++ t :: after ∧ Grammatical lookup before ∧
        Offends lookup before t e := by
  have hok : ∀ given, ofTokens lookup false tokens = .ok given ↔
      Grammatical lookup tokens ∧ GivesArguments lookup [] tokens given := fun given => by
    rw [grammatical_iff_fits]
    exact @ofTokens_eq_ok_iff lookup [] tokens given
  have herror : ∀ e, ofTokens lookup false tokens = .error e ↔
      ∃ before t after, tokens = before ++ t :: after ∧ Grammatical lookup before ∧
        Offends lookup before t e := fun e => by
    simp only [grammatical_iff_fits]
    exact @ofTokens_eq_error_iff lookup [] tokens e
  unfold bind
  cases hrun : ofTokens lookup false tokens with
  | error e =>
      have hnot : ¬ Grammatical lookup tokens := by
        obtain ⟨before, t, after, hsplit, -, hoff⟩ := (herror e).1 hrun
        rw [grammatical_iff_fits]
        exact fun h => hoff.not_fits (h (before, t) (mem_withPast.2 ⟨before, after, hsplit, rfl⟩))
      refine ⟨fun args => ⟨fun h => (by cases h), fun h => absurd h.1 hnot⟩,
        ⟨fun ⟨_, h⟩ => (by cases h), fun h => absurd h hnot⟩, fun e' => ?_⟩
      rw [← herror, hrun]
      exact Iff.rfl
  | ok given =>
      obtain ⟨hg, hgiven⟩ := (hok given).1 hrun
      refine ⟨fun args => ⟨fun h => ⟨hg, given, hgiven, (Except.ok.inj h).symm⟩, ?_⟩,
        ⟨fun _ => hg, fun _ => ⟨_, rfl⟩⟩, fun e => ?_⟩
      · rintro ⟨-, others, hothers, rfl⟩
        obtain rfl := Except.ok.inj (hrun.symm.trans ((hok others).2 ⟨hg, hothers⟩))
        rfl
      · rw [← herror, hrun]
        exact ⟨fun h => (by cases h), fun h => by cases h⟩

/-- A variable that is defined leaves a minus waiting, so a second one is refused. -/
example : bind (fun v => if v = "x" then some (.value .null) else none) []
    [{ kind := .unaryOperator, surface := "-" }, { kind := .variable, surface := "x" },
      { kind := .operator, surface := "-" }] = .error (.operatorRefused "-") := by rfl

/-- At a word the minus is lost. -/
example : bind (fun _ => none) []
    [{ kind := .unaryOperator, surface := "-" }, { kind := .variable, surface := "x" },
      { kind := .operator, surface := "-" }] = .ok [.value (.str "x")] := by rfl

end TextArguments

end ScriptHost
