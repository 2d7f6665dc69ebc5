namespace PhotoCapture.Text

def size : List Char → Nat
  | [] => 0
  | c :: cs => c.utf8Size + size cs

end PhotoCapture.Text
