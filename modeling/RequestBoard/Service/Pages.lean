/-!
# The page that shows the table

`Pages.index` is the page itself, `Pages.script` the script that fills it in.
-/

namespace RequestBoard.Pages

/-- Lines of text, each with a line feed at its end. -/
def lines (texts : List String) : String := String.join (texts.map (· ++ "\n"))

/-- The page. -/
def index : String := lines [
  "<!DOCTYPE html>",
  "<html lang=\"en\">",
  "<head>",
  "    <meta charset=\"utf-8\">",
  "    <title>WMStats Requests</title>",
  "</head>",
  "<body>",
  "    <h1>Requests</h1>",
  "    <p id=\"status\">Loading...</p>",
  "    <div id=\"requests\"></div>",
  "    <script src=\"/static/app.js\"></script>",
  "</body>",
  "</html>"]

/-- The script of the page. -/
def script : String := lines [
  "// Renders the table served by /api/requests: columns[].title as headers,",
  "// rows[].cells in column order.",
  "",
  "function cellText(value) \x7b",
  "    if (value === null || value === undefined) \x7b",
  "        return '';",
  "    \x7d",
  "    if (Array.isArray(value)) \x7b",
  "        return value.join(', ');",
  "    \x7d",
  "    if (typeof value === 'object') \x7b",
  "        return JSON.stringify(value);",
  "    \x7d",
  "    return String(value);",
  "\x7d",
  "",
  "function renderTable(container, payload) \x7b",
  "    const table = document.createElement('table');",
  "    table.className = 'display';",
  "",
  "    const head = table.createTHead().insertRow();",
  "    for (const column of payload.columns) \x7b",
  "        const th = document.createElement('th');",
  "        th.textContent = column.title;",
  "        head.appendChild(th);",
  "    \x7d",
  "",
  "    const body = table.createTBody();",
  "    for (const row of payload.rows) \x7b",
  "        const tr = body.insertRow();",
  "        for (const value of row.cells) \x7b",
  "            tr.insertCell().textContent = cellText(value);",
  "        \x7d",
  "    \x7d",
  "",
  "    container.replaceChildren(table);",
  "\x7d",
  "",
  "async function loadRequests() \x7b",
  "    const status = document.getElementById('status');",
  "    try \x7b",
  "        const response = await fetch('/api/requests');",
  "        const payload = await response.json();",
  "        if (!response.ok) \x7b",
  "            status.textContent = payload.error;",
  "            return;",
  "        \x7d",
  "        renderTable(document.getElementById('requests'), payload);",
  "        status.textContent = payload.rows.length + ' requests (cycle ' + payload.generation + ')';",
  "    \x7d catch (err) \x7b",
  "        status.textContent = 'Failed to load requests: ' + err;",
  "    \x7d",
  "\x7d",
  "",
  "loadRequests();"]

end RequestBoard.Pages
