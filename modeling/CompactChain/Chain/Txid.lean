import CompactChain.Wire.Error

set_option autoImplicit false

namespace CompactChain.Txid

def check (txid : Bytes) : Except ParseError Bytes :=
  if txid.length = 32 then .ok txid else .error (.data (.txidLength txid.length))

def display (txid : Bytes) : String :=
  String.ofList (Hex.encode txid.reverse)

def ofDisplay (text : String) : Except ParseError Bytes :=
  match Hex.decode text.toList with
  | .error error => .error (.hex error)
  | .ok bytes => (check bytes).map List.reverse

def ofDisplays (texts : List String) : Except ParseError (List Bytes) :=
  texts.mapM ofDisplay

end CompactChain.Txid
