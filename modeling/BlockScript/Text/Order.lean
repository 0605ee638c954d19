namespace BlockScript.Text

/-!
# The order of texts

Texts are ordered by their octets in UTF-8, from the left; a text comes before
every longer one that begins with it.
-/

/-- The octets of a text in UTF-8. -/
def octets
    (text : String) :
    List UInt8 :=
  text.toUTF8.data.toList

/-- Whether one text comes before another. -/
def comesBefore
    (left right : String) :
    Bool :=
  (octets left).lex (octets right) fun first second => first < second

end BlockScript.Text
