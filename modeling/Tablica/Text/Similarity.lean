/-!
# Similar words

How much two words are alike is measured by the letters they share: a letter counts as
shared if the other word has it too, not used up by an earlier letter, at about the same
place.  The measure is the mean of three quotas: the shared letters among those of the
one word, among those of the other, and among the shared letters those that come in the
same order in both.

* `Text.shared` — the letters that two words share, in the order of each;
* `Text.similarity` — the measure, from none (0) to equal words (1);
* `Text.mostSimilar?` — the word of a list that is most like a given one, if any is.
-/

namespace Tablica.Text

/-- The first place at which a letter stands in a word, not further than the given distance from a
given place and not among those taken. -/
def placeNear? (word : List Char) (distance place : Nat) (taken : List Nat) (c : Char) :
    Option Nat :=
  (List.range word.length).find? fun i =>
    place - distance ≤ i && i ≤ place + distance && word[i]? = some c && !taken.contains i

/-- The letters of the first word that the second one shares, in the order of the first word and
in that of the second. -/
def shared (s t : List Char) : List Char × List Char :=
  let distance := max s.length t.length / 2 - 1
  let (letters, taken) := s.zipIdx.foldl
    (fun (letters, taken) (c, place) =>
      match placeNear? t distance place taken c with
      | some i => (c :: letters, i :: taken)
      | none => (letters, taken))
    ([], [])
  (letters.reverse, (t.zipIdx.filter fun (_, i) => taken.contains i).map (·.1))

/-- How much two words are alike. -/
def similarity (s t : List Char) : Float :=
  let (inFirst, inSecond) := shared s t
  let count := inFirst.length
  if s = [] && t = [] then 1
  else if count = 0 then 0
  else
    let moved := ((inFirst.zip inSecond).filter fun (c, d) => c ≠ d).length / 2
    (count.toFloat / s.length.toFloat + count.toFloat / t.length.toFloat
      + (count - moved).toFloat / count.toFloat) / 3

/-- The candidate whose word is most like the given one, the last of them if there are several, as
long as it is like it at all. -/
def mostSimilar? {α : Type} (word : String) (spelling : α → String) (candidates : List α) :
    Option α :=
  let best := candidates.foldl
    (fun (best : Option (α × Float)) candidate =>
      let degree := similarity word.toList (spelling candidate).toList
      let isBetter := match best with
        | none => true
        | some (_, other) => !(degree < other)
      if degree > 0.7 && isBetter then some (candidate, degree) else best)
    none
  best.map (·.1)

end Tablica.Text
