import TreeStyle.Theme

/-!
# The standard base theme

Where a host supplies no base theme of its own, this one is used.
-/

namespace TreeStyle.Theme

set_option autoImplicit false

/-- The standard base theme. -/
def standard : Theme := ⟨[
  (.canvas, { fg := some (.named .fgCanvas), bg := some (.named .bgCanvas) }),
  (.comment, { fg := some (.named .darkGrey), attrs := some (AttributeSet.ofList [.italic]) }),
  (.constant, { fg := some (.named .darkCyan) }),
  (.string, { fg := some (.named .green) }),
  (.escapeSeq, { fg := some (.named .darkYellow), attrs := some (AttributeSet.ofList [.bold]) }),
  (.char, { fg := some (.named .green) }),
  (.number, { fg := some (.named .cyan) }),
  (.boolean, { fg := some (.named .darkCyan), attrs := some (AttributeSet.ofList [.bold]) }),
  (.float, { fg := some (.named .cyan) }),
  (.identifier, { fg := some (.named .fgCanvas) }),
  (.function, { fg := some (.named .blue) }),
  (.statement, { fg := some (.named .yellow) }),
  (.conditional, { fg := some (.named .yellow) }),
  (.repetition, { fg := some (.named .yellow) }),
  (.label, { fg := some (.named .darkYellow) }),
  (.operator, { fg := some (.named .white) }),
  (.keyword, { fg := some (.named .magenta), attrs := some (AttributeSet.ofList [.bold]) }),
  (.exception, { fg := some (.named .red) }),
  (.preprocessor, { fg := some (.named .darkMagenta) }),
  (.inclusion, { fg := some (.named .darkMagenta) }),
  (.definition, { fg := some (.named .darkMagenta) }),
  (.macroName, { fg := some (.named .darkMagenta) }),
  (.typeName, { fg := some (.rgb 0x5f 0xaf 0xd7) }),
  (.storageClass, { fg := some (.named .darkBlue) }),
  (.structureName, { fg := some (.named .darkBlue), attrs := some (AttributeSet.ofList [.bold]) }),
  (.typedef, { fg := some (.named .darkBlue) }),
  (.special, { fg := some (.rgb 0xd7 0x87 0x5f) }),
  (.specialChar, { fg := some (.rgb 0xd7 0x87 0x5f) }),
  (.tag, { fg := some (.named .darkGreen) }),
  (.delimiter, { fg := some (.named .grey) }),
  (.specialComment,
    { fg := some (.named .grey), attrs := some (AttributeSet.ofList [.italic, .bold]) }),
  (.debug, { fg := some (.named .red) }),
  (.underlined, { attrs := some (AttributeSet.ofList [.underlined]) }),
  (.error, { fg := some (.named .white), bg := some (.named .darkRed) }),
  (.todo, { fg := some (.named .black), bg := some (.named .yellow) }),
  (.lineNr, { fg := some (.ansi 244) }),
  (.prompt, { fg := some (.named .green), attrs := some (AttributeSet.ofList [.bold]) }),
  (.statusLine, { fg := some (.named .black), bg := some (.ansi 250) }),
  (.tabLine, { fg := some (.ansi 250), bg := some (.ansi 236) }),
  (.tabOption, { fg := some (.ansi 250), bg := some (.ansi 238) }),
  (.tabSelect,
    { fg := some (.named .black), bg := some (.ansi 215), attrs := some (AttributeSet.ofList [.bold]) })]⟩

end TreeStyle.Theme
