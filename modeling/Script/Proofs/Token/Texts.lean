import Script.Proofs.Token.Cover

/-!
# What tokens hold

The parser reads the texts of numbers, bytes and names off their tokens without a check of its own.
It relies on the lexer, which cuts off no number of more than 63 bits, no bytes outside ASCII and no
name that is a keyword: `sound_of_tokenize`.
-/

namespace Script

/-- A word, so no empty text, that is not reserved. -/
structure Token.IsName (text : String) : Prop where
  word : isWord text = true
  free : text ∉ keywords

/-- What a token of a class can have as its text. -/
structure TokenKind.Admits (kind : TokenKind) (text : String) : Prop where
  int : kind = .int → Number.ofDigits text.toList < Token.integerBound
  bytes : kind = .bytes → ∀ c ∈ text.toList, c.toNat < 128
  name : kind = .name → Token.IsName text

namespace Token

/-- A token has a text that its class admits. -/
def Sound (token : Token) : Prop :=
  token.kind.Admits token.text

section Admits

variable {source : List Char} {found : Lexeme}

/-- An integer has no more than 63 bits. -/
theorem number_admits (h : numberLexeme source = .ok found) :
    found.kind.Admits (String.ofList found.text) := by
  obtain ⟨whole, fractional, after, hcut⟩ := exists_number_cut h
  cases hcut.ending with
  | imaginary _ => exact ⟨nofun, nofun, nofun⟩
  | float _ => exact ⟨nofun, nofun, nofun⟩
  | int _ _ hbound =>
      refine ⟨fun _ => ?_, nofun, nofun⟩
      rw [String.toList_ofList]
      exact hbound

/-- A word that is a name is not a keyword. -/
theorem word_admits {c : Char} {rest : List Char} (h : isNameStart c = true) :
    (wordLexeme (c :: rest)).kind.Admits (String.ofList (wordLexeme (c :: rest)).text) := by
  have hword : (c :: rest).takeWhile isNamePart = c :: rest.takeWhile isNamePart :=
    List.takeWhile_cons_of_pos (name_part_of_start h)
  unfold wordLexeme
  rw [hword]
  dsimp only
  split
  · exact ⟨nofun, nofun, nofun⟩
  · rename_i hkeyword
    refine ⟨nofun, nofun, fun _ => ⟨?_, fun hmem => hkeyword (List.contains_iff_mem.mpr hmem)⟩⟩
    unfold isWord
    rw [String.toList_ofList]
    exact Bool.and_eq_true_iff.mpr ⟨h, List.all_takeWhile⟩

/-- The classes of symbols admit any text. -/
theorem symbol_kinds_admit (text : String) : ∀ kind ∈ symbolKinds, kind.Admits text := by
  intro kind hkind
  refine ⟨?_, ?_, ?_⟩
  all_goals
    rintro rfl
    exact absurd hkind (by decide)

/-- The token at the front of a source has a text that its class admits. -/
theorem lexeme_admits {c : Char} (h : lexeme c source = .ok found) :
    found.kind.Admits (String.ofList found.text) := by
  cases lexeme_iff.mp h with
  | string _ => exact ⟨nofun, nofun, nofun⟩
  | @bytes body after _ hascii =>
      refine ⟨nofun, fun _ d hd => ?_, nofun⟩
      rw [String.toList_ofList] at hd
      exact hascii d hd
  | number _ hnumber => exact number_admits hnumber
  | word _ _ _ hstart => exact word_admits hstart
  | symbol _ _ _ hsymbol => exact symbol_kinds_admit _ _ hsymbol.kind_mem

end Admits

/-- The tokens of a source have texts that their classes admit. -/
theorem sound_of_tokenize {source : String} {tokens : List Token}
    (h : tokenize source = .ok tokens) : ∀ t ∈ tokens, t.Sound := by
  obtain ⟨cut, rfl, hcut⟩ := (tiles_of_tokenize h).exists_cut
  intro t ht
  obtain ht | ht := List.mem_append.mp ht
  · obtain ⟨c, rest, -, -, hlexeme⟩ := (hcut t ht).lexeme
    have hadmits := lexeme_admits hlexeme
    rw [String.ofList_toList] at hadmits
    exact hadmits
  · obtain rfl := List.mem_singleton.mp ht
    exact ⟨nofun, nofun, nofun⟩

end Token

end Script
