/-!
# The published schema document

The shape of descriptions as a JSON Schema document, for editors and other tools.
It is printed as it stands.
-/

namespace Bindery.Shape

/-- The lines of the schema document. -/
def documentLines : List String := [
  "\x7b",
  "  \"$schema\": \"https://json-schema.org/draft/2020-12/schema\",",
  "  \"$id\": \"https://xplatter.dev/schemas/api-definition/v1\",",
  "  \"title\": \"xplatter API description\",",
  "  \"description\": \"Structural schema for xplatter API description documents.\",",
  "  \"type\": \"object\",",
  "  \"required\": [\"api\", \"flatbuffers\", \"interfaces\"],",
  "  \"additionalProperties\": false,",
  "  \"properties\": \x7b",
  "    \"api\": \x7b \"$ref\": \"#/$defs/api_metadata\" \x7d,",
  "    \"flatbuffers\": \x7b",
  "      \"type\": \"array\",",
  "      \"items\": \x7b \"type\": \"string\", \"pattern\": \"\\\\.fbs$\" \x7d,",
  "      \"minItems\": 1",
  "    \x7d,",
  "    \"handles\": \x7b",
  "      \"type\": \"array\",",
  "      \"items\": \x7b \"$ref\": \"#/$defs/handle_definition\" \x7d",
  "    \x7d,",
  "    \"interfaces\": \x7b",
  "      \"type\": \"array\",",
  "      \"items\": \x7b \"$ref\": \"#/$defs/interface_definition\" \x7d,",
  "      \"minItems\": 1",
  "    \x7d",
  "  \x7d,",
  "  \"$defs\": \x7b",
  "    \"snake_name\": \x7b \"type\": \"string\", \"pattern\": \"^[a-z][a-z0-9_]*$\" \x7d,",
  "    \"api_metadata\": \x7b",
  "      \"type\": \"object\",",
  "      \"required\": [\"name\", \"version\", \"impl_lang\"],",
  "      \"additionalProperties\": false,",
  "      \"properties\": \x7b",
  "        \"name\": \x7b \"$ref\": \"#/$defs/snake_name\" \x7d,",
  "        \"version\": \x7b \"type\": \"string\", \"pattern\": \"^\\\\d+\\\\.\\\\d+\\\\.\\\\d+$\" \x7d,",
  "        \"description\": \x7b \"type\": \"string\" \x7d,",
  "        \"impl_lang\": \x7b \"type\": \"string\", \"enum\": [\"cpp\", \"rust\", \"go\", \"go-like\", \"c\"] \x7d,",
  "        \"targets\": \x7b",
  "          \"type\": \"array\",",
  "          \"items\": \x7b \"type\": \"string\", \"enum\": [\"android\", \"ios\", \"web\", \"windows\", \"macos\", \"linux\"] \x7d,",
  "          \"minItems\": 1,",
  "          \"uniqueItems\": true",
  "        \x7d",
  "      \x7d",
  "    \x7d,",
  "    \"handle_definition\": \x7b",
  "      \"type\": \"object\",",
  "      \"required\": [\"name\"],",
  "      \"additionalProperties\": false,",
  "      \"properties\": \x7b",
  "        \"name\": \x7b \"type\": \"string\", \"pattern\": \"^[A-Z][a-zA-Z0-9]*$\" \x7d,",
  "        \"description\": \x7b \"type\": \"string\" \x7d",
  "      \x7d",
  "    \x7d,",
  "    \"interface_definition\": \x7b",
  "      \"type\": \"object\",",
  "      \"required\": [\"name\"],",
  "      \"additionalProperties\": false,",
  "      \"properties\": \x7b",
  "        \"name\": \x7b \"$ref\": \"#/$defs/snake_name\" \x7d,",
  "        \"description\": \x7b \"type\": \"string\" \x7d,",
  "        \"constructors\": \x7b",
  "          \"type\": \"array\",",
  "          \"items\": \x7b \"$ref\": \"#/$defs/method_definition\" \x7d",
  "        \x7d,",
  "        \"methods\": \x7b",
  "          \"type\": \"array\",",
  "          \"items\": \x7b \"$ref\": \"#/$defs/method_definition\" \x7d",
  "        \x7d",
  "      \x7d",
  "    \x7d,",
  "    \"method_definition\": \x7b",
  "      \"type\": \"object\",",
  "      \"required\": [\"name\"],",
  "      \"additionalProperties\": false,",
  "      \"properties\": \x7b",
  "        \"name\": \x7b \"$ref\": \"#/$defs/snake_name\" \x7d,",
  "        \"description\": \x7b \"type\": \"string\" \x7d,",
  "        \"parameters\": \x7b",
  "          \"type\": \"array\",",
  "          \"items\": \x7b \"$ref\": \"#/$defs/parameter_definition\" \x7d",
  "        \x7d,",
  "        \"returns\": \x7b \"$ref\": \"#/$defs/return_definition\" \x7d,",
  "        \"error\": \x7b \"type\": \"string\", \"pattern\": \"^[A-Z][a-zA-Z0-9]*(\\\\.[A-Z][a-zA-Z0-9]*)*$\" \x7d",
  "      \x7d",
  "    \x7d,",
  "    \"parameter_definition\": \x7b",
  "      \"type\": \"object\",",
  "      \"required\": [\"name\", \"type\"],",
  "      \"additionalProperties\": false,",
  "      \"properties\": \x7b",
  "        \"name\": \x7b \"$ref\": \"#/$defs/snake_name\" \x7d,",
  "        \"type\": \x7b",
  "          \"type\": \"string\",",
  "          \"pattern\": \"^(int8|int16|int32|int64|uint8|uint16|uint32|uint64|float32|float64|bool|string|buffer<(int8|int16|int32|int64|uint8|uint16|uint32|uint64|float32|float64)>|handle:[A-Z][a-zA-Z0-9]*|[A-Z][a-zA-Z0-9]*(\\\\.[A-Z][a-zA-Z0-9]*)*)$\"",
  "        \x7d,",
  "        \"transfer\": \x7b \"type\": \"string\", \"enum\": [\"value\", \"ref\", \"ref_mut\"] \x7d,",
  "        \"description\": \x7b \"type\": \"string\" \x7d",
  "      \x7d",
  "    \x7d,",
  "    \"return_definition\": \x7b",
  "      \"type\": \"object\",",
  "      \"required\": [\"type\"],",
  "      \"additionalProperties\": false,",
  "      \"properties\": \x7b",
  "        \"type\": \x7b",
  "          \"type\": \"string\",",
  "          \"pattern\": \"^(int8|int16|int32|int64|uint8|uint16|uint32|uint64|float32|float64|bool|handle:[A-Z][a-zA-Z0-9]*|[A-Z][a-zA-Z0-9]*(\\\\.[A-Z][a-zA-Z0-9]*)*)$\"",
  "        \x7d,",
  "        \"description\": \x7b \"type\": \"string\" \x7d",
  "      \x7d",
  "    \x7d",
  "  \x7d",
  "\x7d"
]

/-- The schema document, without a final line feed. -/
def document : String := "\n".intercalate documentLines

end Bindery.Shape
