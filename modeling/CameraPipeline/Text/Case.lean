/-!
Letter case of the ASCII letters; every other character stays as it is.
-/

namespace CameraPipeline.Text

def lowerAscii (s : String) : String := String.ofList (s.toList.map Char.toLower)

def upperAscii (s : String) : String := String.ofList (s.toList.map Char.toUpper)

end CameraPipeline.Text
