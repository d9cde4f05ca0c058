/-! Comparison of names without regard to case. Only the letters whose lower case is an ASCII
letter matter, because every name that is looked up is written in ASCII: the capitals `A` to `Z`
and the Kelvin sign, whose lower case is `k`. -/
namespace Matchmaking
namespace Text

def lowerChar (c : Char) : Char := if c = '\u212a' then 'k' else c.toLower

def lower (s : List Char) : List Char := s.map lowerChar

def lowerCase (s : String) : String := String.ofList (lower s.toList)

@[simp] theorem lower_nil : lower [] = [] := rfl

@[simp] theorem lower_cons (c : Char) (s : List Char) :
    lower (c :: s) = lowerChar c :: lower s := rfl

@[simp] theorem lower_append (s t : List Char) : lower (s ++ t) = lower s ++ lower t :=
  List.map_append

end Text
end Matchmaking
