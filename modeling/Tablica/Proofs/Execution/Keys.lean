import Std.Data.String.ToInt
import Tablica.Execution.Memory
import Tablica.Proofs.Token.Spelling

/-!
# Keys never collide

The key of an array element is one long name,

    T ["a\"]["] [-7] [nil]

and nothing but its characters keeps the elements apart.  Each part of it can be read off the front
of whatever follows in one way only: a character of a quoted text, because every escape starts with
a backslash and every other character stands for itself; the text, because the closing quote does
not look like a character of it; an index, because what is not quoted holds no bracket; and the name,
because no name holds an opening bracket.

* `SelfDelimiting` — that writings can be read off the front in one way only;
* `SelfDelimiting.flatMap`, `append_eq_append_iff_of_forall` — one writing after another, and one that a
  character ends;
* `Text.escape_selfDelimiting`, `Text.quote_selfDelimiting` — quoted texts;
* `Value.bracketed_selfDelimiting` — indices;
* `Token.openBracket_not_mem` — names;
* `Memory.find?_of_save` — that a cell is written and no other;
* `keys_never_collide` — the law.
-/

namespace Tablica

/-! ### Writings that end themselves -/

/-- **Self-delimiting**: whatever follows, a writing can be read off the front in one way only. -/
def SelfDelimiting {α : Type} (write : α → List Char) : Prop :=
  ∀ a b rest rest', write a ++ rest = write b ++ rest' → a = b ∧ rest = rest'

/-- What runs up to the first character of a kind is told apart from what follows. -/
theorem append_eq_append_iff_of_forall {p : Char → Bool} {body body' tail tail' : List Char}
    (hbody : ∀ c ∈ body, p c = true) (hbody' : ∀ c ∈ body', p c = true)
    (htail : ∀ c ∈ tail.head?, p c = false) (htail' : ∀ c ∈ tail'.head?, p c = false) :
    body ++ tail = body' ++ tail' ↔ body = body' ∧ tail = tail' := by
  refine ⟨fun h => ⟨?_, ?_⟩, fun ⟨hb, ht⟩ => by rw [hb, ht]⟩
  · rw [← Text.takeWhile_append_eq hbody htail, h, Text.takeWhile_append_eq hbody' htail']
  · rw [← Text.dropWhile_append_eq hbody htail, h, Text.dropWhile_append_eq hbody' htail']

/-- Writings in a row are read back one by one, as long as there is one. -/
theorem SelfDelimiting.flatMap {α : Type} {write : α → List Char} (hwrite : SelfDelimiting write)
    {as bs : List α} {rest rest' : List Char} (hrest : ∀ a more, rest ≠ write a ++ more)
    (hrest' : ∀ a more, rest' ≠ write a ++ more)
    (h : as.flatMap write ++ rest = bs.flatMap write ++ rest') : as = bs ∧ rest = rest' := by
  induction as generalizing bs with
  | nil =>
    cases bs with
    | nil => exact ⟨rfl, h⟩
    | cons b bs =>
      rw [List.flatMap_cons, List.append_assoc] at h
      exact absurd h (hrest b _)
  | cons a as ih =>
    cases bs with
    | nil =>
      rw [List.flatMap_cons, List.append_assoc] at h
      exact absurd h.symm (hrest' a _)
    | cons b bs =>
      rw [List.flatMap_cons, List.flatMap_cons, List.append_assoc, List.append_assoc] at h
      obtain ⟨rfl, htails⟩ := hwrite _ _ _ _ h
      obtain ⟨rfl, hrests⟩ := ih htails
      exact ⟨rfl, hrests⟩

/-! ### Digits -/

theorem digitChar_inj {m n : Nat} (hm : m < 16) (hn : n < 16)
    (h : m.digitChar = n.digitChar) : m = n :=
  (by decide : ∀ m < 16, ∀ n < 16, m.digitChar = n.digitChar → m = n) m hm n hn h

/-- A number is written in hexadecimal digits in one way only. -/
theorem toDigits_sixteen_inj {m n : Nat} (h : Nat.toDigits 16 m = Nat.toDigits 16 n) : m = n := by
  induction m using Nat.strongRecOn generalizing n with
  | _ m ih =>
    rw [Nat.toDigits_eq_if (by decide), Nat.toDigits_eq_if (n := n) (by decide)] at h
    split at h <;> split at h
    · exact digitChar_inj ‹m < 16› ‹n < 16› (List.singleton_inj.mp h)
    · have hlong := congrArg List.length h
      have hdigits := List.length_pos_of_ne_nil (Nat.toDigits_ne_nil (n := n / 16) (b := 16))
      simp only [List.length_append, List.length_singleton] at hlong
      omega
    · have hlong := congrArg List.length h
      have hdigits := List.length_pos_of_ne_nil (Nat.toDigits_ne_nil (n := m / 16) (b := 16))
      simp only [List.length_append, List.length_singleton] at hlong
      omega
    · obtain ⟨hfront, hlast⟩ := List.append_inj' h rfl
      have hquotient : m / 16 = n / 16 := ih _ (by omega) hfront
      have hremainder : m % 16 = n % 16 :=
        digitChar_inj (by omega) (by omega) (List.singleton_inj.mp hlast)
      omega

theorem ne_closeBrace_of_mem_toDigits {n : Nat} {c : Char} (h : c ∈ Nat.toDigits 16 n) :
    (c != '}') = true := by
  have hdigit : ∀ k < 16, (k.digitChar != '}') = true := by decide
  induction n using Nat.strongRecOn with
  | _ n ih =>
    rw [Nat.toDigits_eq_if (by decide)] at h
    split at h
    · rw [List.mem_singleton.mp h]
      exact hdigit n ‹_›
    · rcases List.mem_append.mp h with hfront | hlast
      · exact ih _ (by omega) hfront
      · rw [List.mem_singleton.mp hlast]
        exact hdigit _ (by omega)

/-! ### Quoted texts -/

namespace Text

/-- The escapes of a single letter, each with the character that it stands for. -/
def letterEscapes : List (Char × Char) :=
  [('0', '\x00'), ('t', '\t'), ('r', '\r'), ('n', '\n'), ('"', '"'), ('\\', '\\')]

/-- A character stands for itself, or it is a backslash and a letter, or a backslash and its code
point. -/
theorem escape_cases (c : Char) :
    (escape c = [c] ∧ c ≠ '"' ∧ c ≠ '\\')
      ∨ (∃ letter, (letter, c) ∈ letterEscapes ∧ escape c = ['\\', letter])
      ∨ escape c = escapeCodePoint c := by
  by_cases hletter : ∃ letter, (letter, c) ∈ letterEscapes
  · obtain ⟨letter, hmem⟩ := hletter
    refine .inr (.inl ⟨letter, hmem, ?_⟩)
    have hall : ∀ p ∈ letterEscapes, escape p.2 = ['\\', p.1] := by decide
    exact hall _ hmem
  · have hno : ∀ p ∈ letterEscapes, c ≠ p.2 := fun p hp heq => hletter ⟨p.1, heq ▸ hp⟩
    obtain ⟨h₀, ht, hr, hn, hquote, hbackslash⟩ : c ≠ '\x00' ∧ c ≠ '\t' ∧ c ≠ '\r' ∧ c ≠ '\n'
        ∧ c ≠ '"' ∧ c ≠ '\\' := by
      simpa [letterEscapes] using hno
    have hescape : escape c
        = if extendsGrapheme c || !isPrintable c then escapeCodePoint c else [c] := by
      simp only [escape, h₀, ht, hr, hn, hquote, hbackslash, if_false]
    rw [hescape]
    split
    · exact .inr (.inr rfl)
    · exact .inl ⟨rfl, hquote, hbackslash⟩

/-- Code points are told apart by the brace that ends them. -/
theorem escapeCodePoint_selfDelimiting : SelfDelimiting escapeCodePoint := by
  intro c d rest rest' h
  simp only [escapeCodePoint, List.append_assoc] at h
  have hdigits := List.append_cancel_left h
  obtain ⟨hcode, hrest⟩ := (append_eq_append_iff_of_forall (p := (· != '}'))
    (fun _ => ne_closeBrace_of_mem_toDigits) (fun _ => ne_closeBrace_of_mem_toDigits)
    (by simp) (by simp)).mp hdigits
  exact ⟨Char.toNat_inj.mp (toDigits_sixteen_inj hcode), List.append_cancel_left hrest⟩

/-- **The characters of a quoted text** are read back one by one. -/
theorem escape_selfDelimiting : SelfDelimiting escape := by
  -- no letter escape is spelled like another one, or like a code point
  have hletters : ∀ p ∈ letterEscapes, ∀ q ∈ letterEscapes, p.1 = q.1 → p.2 = q.2 := by decide
  have hcode : ∀ p ∈ letterEscapes, p.1 ≠ 'u' := by decide
  intro c d rest rest' h
  rcases escape_cases c with ⟨hc, -, hplain⟩ | ⟨letter, hletter, hc⟩ | hc <;>
    rcases escape_cases d with ⟨hd, -, hplain'⟩ | ⟨letter', hletter', hd⟩ | hd <;>
    rw [hc, hd] at h
  · exact List.cons_eq_cons.mp h
  · exact absurd (List.cons_eq_cons.mp h).1 hplain
  · exact absurd (List.cons_eq_cons.mp h).1 hplain
  · exact absurd (List.cons_eq_cons.mp h).1.symm hplain'
  · obtain ⟨heq, hrest⟩ := List.cons_eq_cons.mp (List.cons_eq_cons.mp h).2
    exact ⟨hletters _ hletter _ hletter' heq, hrest⟩
  · exact absurd (List.cons_eq_cons.mp (List.cons_eq_cons.mp h).2).1 (hcode _ hletter)
  · exact absurd (List.cons_eq_cons.mp h).1.symm hplain'
  · exact absurd (List.cons_eq_cons.mp (List.cons_eq_cons.mp h).2).1.symm (hcode _ hletter')
  · exact escapeCodePoint_selfDelimiting c d rest rest' h

/-- The closing quote is not taken for a character of the text. -/
theorem quote_ne_escape_append (rest : List Char) (c : Char) (more : List Char) :
    '"' :: rest ≠ escape c ++ more := by
  intro h
  rcases escape_cases c with ⟨hc, hquote, -⟩ | ⟨letter, -, hc⟩ | hc <;> rw [hc] at h
  · exact hquote (List.cons_eq_cons.mp h).1.symm
  · exact absurd (List.cons_eq_cons.mp h).1 (by decide)
  · exact absurd (List.cons_eq_cons.mp h).1 (by decide)

/-- **Quoted texts** end with the closing quote. -/
theorem quote_selfDelimiting : SelfDelimiting quote := by
  intro s t rest rest' h
  simp only [quote, List.cons_append, List.append_assoc, List.nil_append] at h
  obtain ⟨rfl, hrest⟩ := escape_selfDelimiting.flatMap (quote_ne_escape_append rest)
    (quote_ne_escape_append rest') (List.cons_eq_cons.mp h).2
  exact ⟨rfl, (List.cons_eq_cons.mp hrest).2⟩

end Text

/-! ### Indices -/

namespace Value

/-- An index between its brackets. -/
def bracketed (index : Value) : List Char :=
  '[' :: (index.keyFragment.toList ++ [']'])

theorem keyFragment_text (s : String) : (text s).keyFragment.toList = Text.quote s.toList :=
  String.toList_ofList

/-- A number is written in digits, perhaps after a minus sign. -/
theorem mem_shown_number {n : Number} {c : Char} (h : c ∈ n.shown.toList) :
    c.isDigit = true ∨ c = '-' := by
  have hdigits : ∀ {k : Nat} {c : Char}, c ∈ Nat.toDigits 10 k → c.isDigit = true :=
    fun hc => Nat.isDigit_of_mem_toDigits (by decide) (by decide) hc
  rcases hval : n.val with k | k
  · rw [Token.toList_shown hval] at h
    exact .inl (hdigits h)
  · rw [Token.toList_shown_of_neg hval] at h
    rcases List.mem_cons.mp h with hminus | hdigit
    · exact .inr hminus
    · exact .inl (hdigits hdigit)

theorem shown_number_inj {m n : Number} (h : m.shown = n.shown) : m = n :=
  Number.ext_val (Int.repr_inj.mp h)

theorem shown_number_ne_nil (n : Number) : n.shown ≠ "nil" := by
  intro h
  have hmem : 'n' ∈ n.shown.toList := by rw [h]; decide
  exact absurd (mem_shown_number hmem) (by decide)

/-- What is not quoted holds no closing bracket and no quote. -/
theorem bare_of_mem_keyFragment {index : Value} (hbare : ∀ s, index ≠ text s) {c : Char}
    (h : c ∈ index.keyFragment.toList) : (c != ']') = true ∧ c ≠ '"' := by
  cases index with
  | nil =>
    have hall : ∀ c ∈ "nil".toList, (c != ']') = true ∧ c ≠ '"' :=
      List.all_iff_forall_prop.mp (by decide)
    exact hall c h
  | number n =>
    rcases mem_shown_number h with hdigit | rfl
    · refine ⟨bne_iff_ne.mpr ?_, ?_⟩ <;> rintro rfl <;> exact absurd hdigit (by decide)
    · decide
  | text s => exact absurd rfl (hbare s)

/-- Different values that are not quoted are written differently. -/
theorem bare_keyFragment_inj {index index' : Value} (hbare : ∀ s, index ≠ text s)
    (hbare' : ∀ s, index' ≠ text s) (h : index.keyFragment = index'.keyFragment) :
    index = index' := by
  cases index with
  | nil =>
    cases index' with
    | nil => rfl
    | number n => exact absurd h.symm (shown_number_ne_nil n)
    | text s => exact absurd rfl (hbare' s)
  | number m =>
    cases index' with
    | nil => exact absurd h (shown_number_ne_nil m)
    | number n => rw [shown_number_inj h]
    | text s => exact absurd rfl (hbare' s)
  | text s => exact absurd rfl (hbare s)

/-- A text is not taken for a value that is not quoted. -/
theorem quote_append_ne {index : Value} (hbare : ∀ s, index ≠ text s) (s : List Char)
    (rest rest' : List Char) : Text.quote s ++ rest ≠ index.keyFragment.toList ++ ']' :: rest' := by
  intro h
  cases hchars : index.keyFragment.toList with
  | nil =>
    rw [hchars] at h
    exact absurd (List.cons_eq_cons.mp h).1 (by decide)
  | cons c cs =>
    rw [hchars] at h
    refine (bare_of_mem_keyFragment hbare (c := c) ?_).2 (List.cons_eq_cons.mp h).1.symm
    rw [hchars]
    exact List.mem_cons_self

/-- **Indices** end with their closing brackets. -/
theorem bracketed_selfDelimiting : SelfDelimiting bracketed := by
  intro index index' rest rest' h
  simp only [bracketed, List.cons_append, List.append_assoc, List.nil_append] at h
  replace h := (List.cons_eq_cons.mp h).2
  by_cases htext : ∃ s, index = text s <;> by_cases htext' : ∃ s, index' = text s
  · obtain ⟨s, rfl⟩ := htext
    obtain ⟨t, rfl⟩ := htext'
    rw [keyFragment_text, keyFragment_text] at h
    obtain ⟨hchars, hrest⟩ := Text.quote_selfDelimiting _ _ _ _ h
    exact ⟨congrArg text (String.toList_inj.mp hchars), (List.cons_eq_cons.mp hrest).2⟩
  · obtain ⟨s, rfl⟩ := htext
    rw [keyFragment_text] at h
    exact absurd h (quote_append_ne (not_exists.mp htext') _ _ _)
  · obtain ⟨t, rfl⟩ := htext'
    rw [keyFragment_text] at h
    exact absurd h.symm (quote_append_ne (not_exists.mp htext) _ _ _)
  · have hbare := not_exists.mp htext
    have hbare' := not_exists.mp htext'
    obtain ⟨hfragment, hrest⟩ := (append_eq_append_iff_of_forall (p := (· != ']'))
      (fun _ hc => (bare_of_mem_keyFragment hbare hc).1)
      (fun _ hc => (bare_of_mem_keyFragment hbare' hc).1) (by simp) (by simp)).mp h
    exact ⟨bare_keyFragment_inj hbare hbare' (String.toList_inj.mp hfragment),
      (List.cons_eq_cons.mp hrest).2⟩

end Value

/-! ### Names -/

namespace Token

/-- **Names** hold no opening bracket. -/
theorem openBracket_not_mem {symbol cs rest : List Char} {name : String}
    (h : readWord symbol cs = (.identifier name, rest)) : '[' ∉ name.toList := by
  obtain ⟨hkind, -⟩ := Prod.mk.inj h
  rw [← eq_of_classify_eq_identifier hkind, String.toList_ofList]
  intro hmem
  exact absurd (endsWord_eq_false_of_mem_spanWord hmem) (by decide)

end Token

/-! ### Keys -/

namespace Memory

theorem toList_key (name : String) (indices : List Value) :
    (key name indices).toList = name.toList ++ indices.flatMap Value.bracketed := by
  unfold key
  induction indices generalizing name with
  | nil => simp
  | cons index indices ih =>
    rw [List.foldl_cons, ih, List.flatMap_cons]
    simp [Value.bracketed]

/-- Indices begin where the name ends. -/
theorem head?_flatMap_bracketed (indices : List Value) :
    ∀ c ∈ (indices.flatMap Value.bracketed).head?, (c != '[') = false := by
  cases indices with
  | nil => nofun
  | cons index indices => simp [Value.bracketed]

/-- **Keys** belong to one name and one list of indices. -/
theorem key_inj {name name' : String} {indices indices' : List Value} (hname : '[' ∉ name.toList)
    (hname' : '[' ∉ name'.toList) (h : key name indices = key name' indices') :
    name = name' ∧ indices = indices' := by
  have hbracket : ∀ {name : String}, '[' ∉ name.toList → ∀ c ∈ name.toList, (c != '[') = true :=
    fun hno c hc => bne_iff_ne.mpr fun heq => hno (heq ▸ hc)
  have hlist := congrArg String.toList h
  rw [toList_key, toList_key] at hlist
  obtain ⟨hnames, hindices⟩ := (append_eq_append_iff_of_forall (hbracket hname) (hbracket hname')
    (head?_flatMap_bracketed indices) (head?_flatMap_bracketed indices')).mp hlist
  have hnone : ∀ (index : Value) (more : List Char), [] ≠ index.bracketed ++ more :=
    fun _ _ => List.cons_ne_nil _ _ |>.symm
  have hrows : indices.flatMap Value.bracketed ++ [] = indices'.flatMap Value.bracketed ++ [] := by
    rw [List.append_nil, List.append_nil, hindices]
  exact ⟨String.toList_inj.mp hnames,
    (Value.bracketed_selfDelimiting.flatMap hnone hnone hrows).1⟩

theorem find?_put_of_ne (m : Memory) {key key' : String} (hne : key ≠ key') (cell : Cell)
    (scope scope' : Option ScopeId) :
    (m.put key cell scope).find? key' scope' = m.find? key' scope' := by
  have hglobal : (m.putGlobal key cell).find? key' scope' = m.find? key' scope' := by
    have hlocal : (m.putGlobal key cell).local? key' scope' = m.local? key' scope' := rfl
    rw [find?, find?, hlocal]
    simp [putGlobal, Std.ExtTreeMap.getElem?_insert, hne]
  cases scope with
  | none => exact hglobal
  | some scope =>
    have hlocal : (m.putLocal key cell scope).local? key' scope' = m.local? key' scope' := by
      cases scope' with
      | none => rfl
      | some scope' =>
        simp only [local?, Option.bind_some, scopeTable_putLocal]
        split
        · rename_i heq
          subst heq
          simp [Std.ExtTreeMap.getElem?_insert, hne]
        · rfl
    simp only [put]
    split
    · rw [find?, find?, hlocal]
      rfl
    · exact hglobal

/-- Writing a variable leaves the cells of all other keys as they were, in every scope. -/
theorem find?_of_save {m m' : Memory} {key key' : String} {value : Value}
    {scope scope' : Option ScopeId} (h : m.save key value scope = .ok m') (hne : key ≠ key') :
    m'.find? key' scope' = m.find? key' scope' := by
  simp only [save] at h
  split at h
  · cases h
  · cases h
    exact m.find?_put_of_ne hne _ _ _

end Memory

/-- **Keys never collide.**  A word that is read as a name holds no opening bracket.  Variables with
such names that have the same key have the same name and the same indices, so writing one of them
leaves the cells of all others as they were. -/
theorem keys_never_collide :
    (∀ symbol cs name rest, Token.readWord symbol cs = (.identifier name, rest) →
        '[' ∉ name.toList)
      ∧ ∀ name name' : String, '[' ∉ name.toList → '[' ∉ name'.toList →
        ∀ indices indices' : List Value,
          (Memory.key name indices = Memory.key name' indices' → name = name' ∧ indices = indices')
            ∧ ((name, indices) ≠ (name', indices') →
              ∀ (m m' : Memory) value scope scope',
                m.save (Memory.key name indices) value scope = .ok m' →
                m'.find? (Memory.key name' indices') scope'
                  = m.find? (Memory.key name' indices') scope') := by
  refine ⟨fun _ _ _ _ => Token.openBracket_not_mem,
    fun name name' hname hname' indices indices' => ?_⟩
  have hinj : Memory.key name indices = Memory.key name' indices' →
      name = name' ∧ indices = indices' := Memory.key_inj hname hname'
  refine ⟨hinj, fun hne m m' value scope scope' hsave => ?_⟩
  refine Memory.find?_of_save hsave fun hkey => hne ?_
  obtain ⟨rfl, rfl⟩ := hinj hkey
  rfl

/-- The element of one text that looks like two indices, and the element of the two indices. -/
theorem keys_never_collide_on_brackets :
    Token.readWord Token.defaultRange ['T', '['] = (.identifier "T", ['['])
      ∧ Memory.key "T" [.text "a\"][\"b"] ≠ Memory.key "T" [.text "a", .text "b"] := by
  obtain ⟨hnames, hkeys⟩ := keys_never_collide
  have hread : Token.readWord Token.defaultRange ['T', '['] = (.identifier "T", ['[']) := by
    decide +kernel
  have hT := hnames _ _ _ _ hread
  refine ⟨hread, fun heq => ?_⟩
  exact absurd ((hkeys "T" "T" hT hT _ _).1 heq).2 (by decide)

end Tablica
