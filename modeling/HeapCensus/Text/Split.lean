set_option autoImplicit false

namespace HeapCensus.Text

def splitAtChar (separator : Char) : List Char → List (List Char)
  | [] => [[]]
  | c :: rest =>
      if c = separator then [] :: splitAtChar separator rest
      else
        match splitAtChar separator rest with
        | [] => [[c]]
        | piece :: pieces => (c :: piece) :: pieces

def cutAtChar (separator : Char) : List Char → List Char × List Char
  | [] => ([], [])
  | c :: rest =>
      if c = separator then ([], rest)
      else
        let parts := cutAtChar separator rest
        (c :: parts.1, parts.2)

theorem split_at_char_ne_nil (separator : Char) (text : List Char) :
    splitAtChar separator text ≠ [] := by
  cases text with
  | nil => simp [splitAtChar]
  | cons c rest =>
      rw [splitAtChar]
      split
      · simp
      · split <;> simp

end HeapCensus.Text
